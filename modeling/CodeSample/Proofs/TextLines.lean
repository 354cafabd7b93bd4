import CodeSample.Proofs.Braces

/-!
# Texts line by line

What dropping blanks at line ends does to the lines of a text, and how lines are indented and taken
out of their indentation.

* `splitOn_stripLineEnds`: the lines of a text are stripped one by one;
* `isPrefix_stripLineEnds`: what is written later takes nothing away from what is left of a text;
* `outdent` drops the blanks in front of a line, and `SameLines` says that two texts have the same
  lines but for these;
* `padBreaks` puts blanks after each line break, `indentLine` in front of a line that is not empty,
  and `indentLines` in front of all such lines;
* `stripLineEnds_padBreaks`: once the blanks at line ends are dropped, the former is the latter.
-/

namespace CodeSample.Text

open Layout.Sink (stripLineEnds)

/-! ### Lines -/

/-- Every text is made of lines. -/
theorem exists_joinLines (cs : List Char) : ∃ lines last, cs = joinLines lines last ∧
    (∀ l ∈ lines, '\n' ∉ l) ∧ '\n' ∉ last := by
  induction cs with
  | nil => exact ⟨[], [], rfl, by simp, by simp⟩
  | cons c cs ih =>
    obtain ⟨lines, last, rfl, hlines, hlast⟩ := ih
    by_cases hc : c = '\n'
    · refine ⟨[] :: lines, last, ?_, ?_, hlast⟩
      · rw [joinLines_cons, hc, List.nil_append]
      · exact List.forall_mem_cons.2 ⟨List.not_mem_nil, hlines⟩
    cases lines with
    | nil =>
      refine ⟨[], c :: last, rfl, hlines, ?_⟩
      rw [List.mem_cons, not_or]
      exact ⟨Ne.symm hc, hlast⟩
    | cons l lines =>
      rw [List.forall_mem_cons] at hlines
      refine ⟨(c :: l) :: lines, last, ?_, ?_, hlast⟩
      · rw [joinLines_cons, joinLines_cons, List.cons_append]
      · refine List.forall_mem_cons.2 ⟨?_, hlines.2⟩
        rw [List.mem_cons, not_or]
        exact ⟨Ne.symm hc, hlines.1⟩

/-- Line breaks between lines are the breaks behind all but the last of them. -/
theorem intercalate_newline (lines : List (List Char)) (last : List Char) :
    ['\n'].intercalate (lines ++ [last]) = joinLines lines last := by
  induction lines with
  | nil => simp [joinLines]
  | cons l lines ih =>
    rw [joinLines_cons, ← ih]
    cases lines with
    | nil => simp [List.intercalate]
    | cons m lines => simp [List.intercalate]

/-- The first of several lists comes first, and each other one behind a separator. -/
theorem intercalate_cons (separator l : List Char) (ls : List (List Char)) :
    separator.intercalate (l :: ls) = l ++ ls.flatMap (separator ++ ·) := by
  induction ls generalizing l with
  | nil => simp [List.intercalate]
  | cons m ls ih =>
    have hcons : separator.intercalate (l :: m :: ls) =
        l ++ separator ++ separator.intercalate (m :: ls) := by
      simp [List.intercalate]
    rw [hcons, ih, List.flatMap_cons, List.append_assoc, List.append_assoc]

/-- The first of several lines comes first, and each other one behind a line break. -/
theorem intercalate_newline_cons (l : List Char) (ls : List (List Char)) :
    ['\n'].intercalate (l :: ls) = l ++ ls.flatMap ('\n' :: ·) :=
  intercalate_cons ['\n'] l ls

/-! ### Stripped lines -/

/-- A line stays one without the blanks at its end. -/
theorem newline_not_mem_stripLineEnds {l : List Char} (h : '\n' ∉ l) : '\n' ∉ stripLineEnds l :=
  fun hmem => h (subset_stripLineEnds l hmem)

/-- The lines of a text are stripped one by one. -/
theorem splitOn_stripLineEnds (cs : List Char) :
    (stripLineEnds cs).splitOn '\n' = (cs.splitOn '\n').map stripLineEnds := by
  obtain ⟨lines, last, rfl, hlines, hlast⟩ := exists_joinLines cs
  have hstripped : ∀ l ∈ lines.map stripLineEnds, '\n' ∉ l := by
    intro l hl
    obtain ⟨m, hm, rfl⟩ := List.mem_map.1 hl
    exact newline_not_mem_stripLineEnds (hlines m hm)
  rw [stripLineEnds_joinLines hlines, splitOn_joinLines hlines hlast,
    splitOn_joinLines hstripped (newline_not_mem_stripLineEnds hlast), List.map_append]
  rfl

/-- Two texts with a line break between them are stripped each for itself. -/
theorem stripLineEnds_newline (cs ds : List Char) :
    stripLineEnds (cs ++ '\n' :: ds) = stripLineEnds cs ++ '\n' :: stripLineEnds ds := by
  obtain ⟨lines, last, rfl, hlines, hlast⟩ := exists_joinLines cs
  have hjoin : joinLines lines last ++ '\n' :: ds = joinLines (lines ++ [last]) ds := by
    rw [joinLines_concat]
    simp [joinLines]
  have hall : ∀ l ∈ lines ++ [last], '\n' ∉ l :=
    List.forall_mem_append.2 ⟨hlines, List.forall_mem_singleton.2 hlast⟩
  rw [hjoin, stripLineEnds_joinLines hall, stripLineEnds_joinLines hlines, List.map_append]
  exact (joinLines_concat _ _ _).trans (by simp [joinLines])

/-- Texts with a line break in front of each are stripped each for itself. -/
theorem stripLineEnds_breaks (cs : List Char) (ls : List (List Char)) :
    stripLineEnds (cs ++ ls.flatMap ('\n' :: ·)) =
      stripLineEnds cs ++ (ls.map stripLineEnds).flatMap ('\n' :: ·) := by
  induction ls generalizing cs with
  | nil => rw [List.flatMap_nil, List.append_nil, List.map_nil, List.flatMap_nil, List.append_nil]
  | cons l ls ih =>
    rw [List.flatMap_cons, List.cons_append, stripLineEnds_newline, ih, List.map_cons,
      List.flatMap_cons, List.cons_append]

/-- What is written later takes nothing away from what is left of a text: blanks that come to stand
inside a line are put back, and none that was left is dropped. -/
theorem isPrefix_stripLineEnds (cs ds : List Char) :
    stripLineEnds cs <+: stripLineEnds (cs ++ ds) := by
  induction cs with
  | nil => exact List.nil_prefix
  | cons c cs ih =>
    rw [List.cons_append, stripLineEnds_cons, stripLineEnds_cons]
    obtain ⟨rest, hrest⟩ := ih
    rw [← hrest]
    cases hcs : stripLineEnds cs with
    | nil =>
      -- nothing is left behind `c`, so it is left only if it is no blank
      rw [List.nil_append]
      split
      · exact List.nil_prefix
      · rename_i h
        rw [if_neg fun h' => h ⟨h'.1, Or.inl rfl⟩]
        exact List.cons_prefix_cons.2 ⟨rfl, List.nil_prefix⟩
    | cons d kept =>
      -- what is left behind `c` starts with the same character in both texts
      have hhead : ((c = ' ' ∨ c = '\t') ∧ (d :: kept ++ rest = [] ∨
          (d :: kept ++ rest).head? = some '\n')) = ((c = ' ' ∨ c = '\t') ∧ (d :: kept = [] ∨
            (d :: kept).head? = some '\n')) := by
        simp
      simp only [hhead]
      split
      · exact List.prefix_append _ _
      · exact List.cons_prefix_cons.2 ⟨rfl, List.prefix_append _ _⟩

/-- What is left of a text does not end in a blank. -/
theorem getLast?_stripLineEnds (cs : List Char) :
    ∀ c ∈ (stripLineEnds cs).getLast?, c ≠ ' ' ∧ c ≠ '\t' := by
  induction cs with
  | nil => simp [stripLineEnds]
  | cons c cs ih =>
    intro d hd
    rw [stripLineEnds_cons] at hd
    cases hcs : stripLineEnds cs with
    | nil =>
      rw [hcs] at hd
      split at hd
      · cases hd
      · rename_i h
        obtain rfl : c = d := Option.some.inj hd
        rw [not_and, ← not_or] at *
        exact fun hblank => h hblank (Or.inl rfl)
    | cons e kept =>
      rw [hcs] at hd ih
      split at hd
      · exact ih d hd
      · rw [List.getLast?_cons_cons] at hd
        exact ih d hd

/-- No line of a stripped text ends in a blank or a tab. -/
theorem getLast?_of_mem_splitOn {cs l : List Char} (h : l ∈ (stripLineEnds cs).splitOn '\n') :
    ∀ c ∈ l.getLast?, c ≠ ' ' ∧ c ≠ '\t' := by
  rw [splitOn_stripLineEnds] at h
  obtain ⟨m, -, rfl⟩ := List.mem_map.1 h
  exact getLast?_stripLineEnds m

/-! ### The blanks in front of lines -/

/-- A line without the blanks in front of it. -/
def outdent (l : List Char) : List Char := l.dropWhile (· == ' ')

/-- A blank in front of a line is dropped. -/
theorem outdent_space (l : List Char) : outdent (' ' :: l) = outdent l := rfl

/-- A line that starts with another character stays as it is. -/
theorem outdent_cons {c : Char} (h : c ≠ ' ') (l : List Char) : outdent (c :: l) = c :: l :=
  List.dropWhile_cons_of_neg (by simpa using h)

/-- All blanks in front of a line are dropped. -/
theorem outdent_replicate (n : Nat) (l : List Char) :
    outdent (List.replicate n ' ' ++ l) = outdent l := by
  induction n with
  | zero => rfl
  | succ n ih => rw [List.replicate_succ, List.cons_append, outdent_space, ih]

/-- Lines that are the same but for the blanks in front of them are so with more behind them. -/
theorem outdent_append {l' l : List Char} (h : outdent l' = outdent l) (t : List Char) :
    outdent (l' ++ t) = outdent (l ++ t) := by
  unfold outdent at *
  rw [List.dropWhile_append, List.dropWhile_append, h]

/-- Blanks in front of a line have no part in whether anything stands on it. -/
theorem all_isBlank_outdent (l : List Char) : (outdent l).all isBlank = l.all isBlank := by
  induction l with
  | nil => rfl
  | cons c l ih =>
    by_cases hc : c = ' '
    · rw [hc, outdent_space, ih, List.all_cons, isBlank_space, Bool.true_and]
    · rw [outdent_cons hc]

/-- On a line, the blanks in front and those at the end are dropped in any order. -/
theorem outdent_stripLineEnds {l : List Char} (h : '\n' ∉ l) :
    outdent (stripLineEnds l) = stripLineEnds (outdent l) := by
  induction l with
  | nil => rfl
  | cons c l ih =>
    rw [List.mem_cons, not_or] at h
    by_cases hc : c = ' '
    · rw [hc, outdent_space, ← ih h.2, stripLineEnds_cons]
      split <;> rfl
    · rw [outdent_cons hc, stripLineEnds_cons]
      split
      · rename_i hdropped
        -- only when nothing is left of the line can its first character be dropped
        have hnil : stripLineEnds l = [] := by
          refine hdropped.2.resolve_right fun hhead => ?_
          exact newline_not_mem_stripLineEnds h.2 (List.mem_of_mem_head? hhead)
        rw [hnil]
        rfl
      · exact outdent_cons hc _

/-- The lines of a text, without the blanks in front of them. -/
def outdented (s : String) : List (List Char) := (s.toList.splitOn '\n').map outdent

/-- Two texts have as many lines, and the same ones but for the blanks in front of them. -/
def SameLines (s' s : String) : Prop := outdented s' = outdented s

instance (s' s : String) : Decidable (SameLines s' s) :=
  inferInstanceAs (Decidable (outdented s' = outdented s))

/-- Lines that are the same but for the blanks in front of them are so when they are stripped. -/
theorem sameLines_stripLineEnds {lines' lines : List (List Char)} {last' last : List Char}
    (hlines' : ∀ l ∈ lines', '\n' ∉ l) (hlast' : '\n' ∉ last') (hlines : ∀ l ∈ lines, '\n' ∉ l)
    (hlast : '\n' ∉ last) (habove : lines'.map outdent = lines.map outdent)
    (h : outdent last' = outdent last) :
    SameLines (String.ofList (stripLineEnds (joinLines lines' last')))
      (String.ofList (stripLineEnds (joinLines lines last))) := by
  have hstripped {lines : List (List Char)} {last : List Char} (hlines : ∀ l ∈ lines, '\n' ∉ l)
      (hlast : '\n' ∉ last) : outdented (String.ofList (stripLineEnds (joinLines lines last))) =
        ((lines ++ [last]).map outdent).map stripLineEnds := by
    have hall : ∀ l ∈ lines ++ [last], '\n' ∉ l :=
      List.forall_mem_append.2 ⟨hlines, List.forall_mem_singleton.2 hlast⟩
    unfold outdented
    rw [String.toList_ofList, splitOn_stripLineEnds, splitOn_joinLines hlines hlast, List.map_map,
      List.map_map]
    exact List.map_congr_left fun l hl => outdent_stripLineEnds (hall l hl)
  have hall : (lines' ++ [last']).map outdent = (lines ++ [last]).map outdent := by
    rw [List.map_append, List.map_append, habove, List.map_singleton, List.map_singleton, h]
  unfold SameLines
  rw [hstripped hlines' hlast', hstripped hlines hlast, hall]

/-! ### Indenting -/

/-- Puts blanks after each line break. -/
def padBreaks (k : Nat) (cs : List Char) : List Char :=
  cs.flatMap fun c => if c = '\n' then '\n' :: List.replicate k ' ' else [c]

/-- Blanks are put after the line breaks of two texts each by itself. -/
theorem padBreaks_append (k : Nat) (cs ds : List Char) :
    padBreaks k (cs ++ ds) = padBreaks k cs ++ padBreaks k ds := List.flatMap_append ..

/-- Behind a line break the blanks are put. -/
theorem padBreaks_newline (k : Nat) (cs : List Char) :
    padBreaks k ('\n' :: cs) = '\n' :: (List.replicate k ' ' ++ padBreaks k cs) := rfl

/-- Any other character stays as it is. -/
theorem padBreaks_cons (k : Nat) {c : Char} (h : c ≠ '\n') (cs : List Char) :
    padBreaks k (c :: cs) = c :: padBreaks k cs := by
  unfold padBreaks
  rw [List.flatMap_cons, if_neg h]
  rfl

/-- A text without line breaks stays as it is. -/
theorem padBreaks_of_not_mem (k : Nat) {cs : List Char} (h : '\n' ∉ cs) : padBreaks k cs = cs := by
  induction cs with
  | nil => rfl
  | cons c cs ih =>
    rw [List.mem_cons, not_or] at h
    rw [padBreaks_cons k (Ne.symm h.1), ih h.2]

/-- Putting no blanks changes nothing. -/
theorem padBreaks_zero (cs : List Char) : padBreaks 0 cs = cs := by
  induction cs with
  | nil => rfl
  | cons c cs ih =>
    by_cases hc : c = '\n'
    · rw [hc, padBreaks_newline, ih]
      rfl
    · rw [padBreaks_cons 0 hc, ih]

/-- No line breaks are added. -/
theorem count_padBreaks (k : Nat) (cs : List Char) :
    (padBreaks k cs).count '\n' = cs.count '\n' := by
  induction cs with
  | nil => rfl
  | cons c cs ih =>
    by_cases hc : c = '\n'
    · have hblanks : (List.replicate k ' ').count '\n' = 0 :=
        List.count_eq_zero_of_not_mem (not_mem_blanks (by decide) k)
      rw [hc, padBreaks_newline, List.count_cons_self, List.count_cons_self, List.count_append, ih,
        hblanks, Nat.zero_add]
    · rw [padBreaks_cons k hc, List.count_cons_of_ne hc, List.count_cons_of_ne hc, ih]

/-- Puts blanks in front of a line, unless it is empty. -/
def indentLine (k : Nat) (l : List Char) : List Char :=
  if l = [] then [] else List.replicate k ' ' ++ l

/-- Puts blanks in front of each line of a text that is not empty. -/
def indentLines (k : Nat) (s : String) : String :=
  String.ofList (['\n'].intercalate ((s.toList.splitOn '\n').map (indentLine k)))

/-- Blanks in front of a line stay unless nothing else is left of it. -/
theorem stripLineEnds_replicate (k : Nat) {l : List Char} (h : '\n' ∉ l) :
    stripLineEnds (List.replicate k ' ' ++ l) = indentLine k (stripLineEnds l) := by
  unfold indentLine
  induction k with
  | zero =>
    rw [List.replicate_zero, List.nil_append]
    split
    · assumption
    · rfl
  | succ k ih =>
    rw [List.replicate_succ, List.cons_append, stripLineEnds_cons, ih]
    by_cases hl : stripLineEnds l = []
    · rw [if_pos hl, if_pos hl, if_pos ⟨Or.inl rfl, Or.inl rfl⟩]
    · rw [if_neg hl, if_neg hl, if_neg, List.cons_append]
      rintro ⟨-, hnil | hhead⟩
      · exact hl (List.append_eq_nil_iff.1 hnil).2
      · have hmem := List.mem_of_mem_head? hhead
        rcases List.mem_append.1 hmem with hmem | hmem
        · exact not_mem_blanks (by decide) k hmem
        · exact newline_not_mem_stripLineEnds h hmem

/-- Blanks in front of a text and after its line breaks are blanks in front of all its lines. -/
theorem replicate_padBreaks_joinLines (k : Nat) {lines : List (List Char)} {last : List Char}
    (hlines : ∀ l ∈ lines, '\n' ∉ l) (hlast : '\n' ∉ last) :
    List.replicate k ' ' ++ padBreaks k (joinLines lines last) =
      joinLines (lines.map (List.replicate k ' ' ++ ·)) (List.replicate k ' ' ++ last) := by
  induction lines with
  | nil => exact congrArg _ (padBreaks_of_not_mem k hlast)
  | cons l lines ih =>
    rw [List.forall_mem_cons] at hlines
    rw [joinLines_cons, padBreaks_append, padBreaks_of_not_mem k hlines.1, padBreaks_newline,
      ih hlines.2, List.map_cons, joinLines_cons, List.append_assoc]

/-- A text with blanks after its line breaks, and as many in front of its first line, is a text in
which these stand in front of each line. -/
theorem stripLineEnds_padBreaks (k : Nat) (cs : List Char) :
    stripLineEnds (List.replicate k ' ' ++ padBreaks k cs) =
      (indentLines k (String.ofList (stripLineEnds cs))).toList := by
  obtain ⟨lines, last, rfl, hlines, hlast⟩ := exists_joinLines cs
  have hpadded : ∀ l ∈ lines.map (List.replicate k ' ' ++ ·), '\n' ∉ l := by
    intro l hl
    obtain ⟨m, hm, rfl⟩ := List.mem_map.1 hl
    rw [List.mem_append, not_or]
    exact ⟨not_mem_blanks (by decide) k, hlines m hm⟩
  unfold indentLines
  rw [replicate_padBreaks_joinLines k hlines hlast, stripLineEnds_joinLines hpadded,
    String.toList_ofList, String.toList_ofList, splitOn_stripLineEnds,
    splitOn_joinLines hlines hlast, List.map_map, List.map_map, List.map_append,
    List.map_singleton, intercalate_newline, stripLineEnds_replicate k hlast]
  refine congrArg (joinLines · _) (List.map_congr_left fun l hl => ?_)
  exact stripLineEnds_replicate k (hlines l hl)

end CodeSample.Text

import CodeSample.Layout.Sink

/-!
# Braces and the lines of a text

How many braces are open at a place of a text, and how the lines of a text are indented by them.

* `nest` counts the braces that are open after some characters, `Balanced` says that every brace is
  closed; `nest_append` and `nest_add` are how it is computed piece by piece;
* `Indented` is the law of a line: the blanks in front of it are as many as its open braces ask for;
* `Braced` is the law of a whole text, `Ruled` that of lines which may still have blanks at their
  ends;
* `braced_stripLineEnds`: where the latter holds, the former holds once these are dropped.
-/

namespace CodeSample.Text

/-! ### Open braces -/

/-- How many braces are open after some characters if `a` are open in front of them. There is no
answer if a brace is closed that is not open. -/
def nest : Nat → List Char → Option Nat
  | a, [] => some a
  | a, c :: cs =>
    if c = '\x7b' then nest (a + 1) cs
    else if c = '\x7d' then if a = 0 then none else nest (a - 1) cs
    else nest a cs

/-- Every brace is closed, and none that is not open. -/
def Balanced (cs : List Char) : Prop := nest 0 cs = some 0

instance (cs : List Char) : Decidable (Balanced cs) :=
  inferInstanceAs (Decidable (nest 0 cs = some 0))

/-- A character opens a brace, closes one that is open, or leaves the braces as they are. -/
theorem nest_cons (a : Nat) (c : Char) (cs : List Char) :
    nest a (c :: cs) =
      if c = '\x7b' then nest (a + 1) cs
      else if c = '\x7d' then if a = 0 then none else nest (a - 1) cs
      else nest a cs := rfl

/-- The braces in two texts are opened and closed one after the other. -/
theorem nest_append (a : Nat) (cs ds : List Char) :
    nest a (cs ++ ds) = (nest a cs).bind (nest · ds) := by
  induction cs generalizing a with
  | nil => rfl
  | cons c cs ih =>
    rw [List.cons_append, nest_cons, nest_cons]
    by_cases hopening : c = '\x7b'
    · rw [if_pos hopening, if_pos hopening, ih]
    by_cases hclosing : c = '\x7d'
    · rw [if_neg hopening, if_pos hclosing, if_neg hopening, if_pos hclosing]
      by_cases ha : a = 0
      · rw [if_pos ha, if_pos ha]
        rfl
      · rw [if_neg ha, if_neg ha, ih]
    · rw [if_neg hopening, if_neg hclosing, if_neg hopening, if_neg hclosing, ih]

/-- Braces that are open in front of some characters stay open. -/
theorem nest_add {a b : Nat} {cs : List Char} (n : Nat) (h : nest a cs = some b) :
    nest (a + n) cs = some (b + n) := by
  induction cs generalizing a with
  | nil =>
    obtain rfl := Option.some.inj h
    rfl
  | cons c cs ih =>
    rw [nest_cons] at h ⊢
    by_cases hopening : c = '\x7b'
    · rw [if_pos hopening] at h ⊢
      rw [show a + n + 1 = a + 1 + n by omega]
      exact ih h
    by_cases hclosing : c = '\x7d'
    · rw [if_neg hopening, if_pos hclosing] at h ⊢
      by_cases ha : a = 0
      · rw [if_pos ha] at h
        cases h
      · rw [if_neg ha] at h
        rw [if_neg (by omega), show a + n - 1 = a - 1 + n by omega]
        exact ih h
    · rw [if_neg hopening, if_neg hclosing] at h ⊢
      exact ih h

/-- A balanced text leaves the braces in front of it open. -/
theorem Balanced.nest {cs : List Char} (h : Balanced cs) (a : Nat) : nest a cs = some a := by
  have := nest_add a h
  rwa [Nat.zero_add] at this

/-- Two balanced texts one after the other are balanced. -/
theorem Balanced.append {cs ds : List Char} (hcs : Balanced cs) (hds : Balanced ds) :
    Balanced (cs ++ ds) := by
  unfold Balanced
  rw [nest_append, hcs]
  exact hds

/-- Characters among which there are no braces. -/
theorem balanced_of_not_mem {cs : List Char} (hopening : '\x7b' ∉ cs) (hclosing : '\x7d' ∉ cs) :
    Balanced cs := by
  induction cs with
  | nil => rfl
  | cons c cs ih =>
    rw [List.mem_cons, not_or] at hopening hclosing
    unfold Balanced
    rw [nest_cons, if_neg (Ne.symm hopening.1), if_neg (Ne.symm hclosing.1)]
    exact ih hopening.2 hclosing.2

/-- Balanced characters between two texts that are balanced when put together. -/
theorem Balanced.between {cs ds es : List Char} (h : Balanced (cs ++ es)) (hds : Balanced ds) :
    Balanced (cs ++ ds ++ es) := by
  unfold Balanced at h ⊢
  rw [nest_append] at h
  obtain ⟨a, ha, hes⟩ := Option.bind_eq_some_iff.1 h
  rw [nest_append, nest_append, ha, Option.bind_some, hds.nest a, Option.bind_some]
  exact hes

/-- How many more braces are opened than closed. -/
def opened (cs : List Char) : Int := cs.count '\x7b' - cs.count '\x7d'

/-- What two texts open is added up. -/
theorem opened_append (cs ds : List Char) : opened (cs ++ ds) = opened cs + opened ds := by
  unfold opened
  rw [List.count_append, List.count_append]
  omega

/-- The braces that are open after a text are those in front of it and those that it opens. -/
theorem opened_of_nest {a b : Nat} {cs : List Char} (h : nest a cs = some b) :
    (b : Int) = a + opened cs := by
  induction cs generalizing a with
  | nil =>
    obtain rfl := Option.some.inj h
    simp [opened]
  | cons c cs ih =>
    rw [nest_cons] at h
    have hcons : opened (c :: cs) = opened [c] + opened cs := opened_append [c] cs
    by_cases hopening : c = '\x7b'
    · rw [if_pos hopening] at h
      have hone : opened [c] = 1 := by rw [hopening]; decide
      have := ih h
      omega
    by_cases hclosing : c = '\x7d'
    · rw [if_neg hopening, if_pos hclosing] at h
      have hone : opened [c] = -1 := by rw [hclosing]; decide
      by_cases ha : a = 0
      · rw [if_pos ha] at h
        cases h
      · rw [if_neg ha] at h
        have := ih h
        omega
    · rw [if_neg hopening, if_neg hclosing] at h
      have hzero : opened [c] = 0 := by
        unfold opened
        rw [List.count_eq_zero_of_not_mem (by simp [Ne.symm hopening]),
          List.count_eq_zero_of_not_mem (by simp [Ne.symm hclosing])]
        rfl
      have := ih h
      omega

/-! ### The law of indentation -/

/-- A line below some text starts with `k` blanks for each brace that is open there, not counting
one that it closes itself at its start, and then with a character that is no white space. -/
def Indented (k : Nat) (above line : List Char) : Prop :=
  ∃ (d : Nat) (c : Char) (rest : List Char), line = List.replicate (k * d) ' ' ++ c :: rest ∧
    isBlank c = false ∧ (d : Int) = opened above - if c = '\x7d' then 1 else 0

/-- A text is balanced, and each of its lines that is not empty is indented by the braces that are
open in front of it. -/
structure Braced (k : Nat) (s : String) : Prop where
  balanced : Balanced s.toList
  indented : ∀ before line after, s.toList.splitOn '\n' = before ++ line :: after → line ≠ [] →
    Indented k before.flatten line

/-- A line of a text that is being written: a blank one, or one that obeys the law. -/
def IsLine (k : Nat) (above line : List Char) : Prop :=
  '\n' ∉ line ∧ ((∀ c ∈ line, c = ' ') ∨ Indented k above line)

/-- The lines of a text that is being written. -/
def Ruled (k : Nat) (lines : List (List Char)) : Prop :=
  ∀ before line after, lines = before ++ line :: after → IsLine k before.flatten line

/-- No line at all obeys the law. -/
theorem ruled_nil (k : Nat) : Ruled k [] := by
  intro before line after h
  simp at h

/-- One line more. -/
theorem Ruled.concat {k : Nat} {lines : List (List Char)} {line : List Char} (h : Ruled k lines)
    (hline : IsLine k lines.flatten line) : Ruled k (lines ++ [line]) := by
  intro before l after heq
  rcases List.eq_nil_or_concat after with rfl | ⟨after, last, rfl⟩
  · obtain ⟨rfl, hl⟩ := List.append_inj' heq rfl
    obtain rfl := List.head_eq_of_cons_eq hl
    exact hline
  · have heq : lines ++ [line] = (before ++ l :: after) ++ [last] := by simpa using heq
    obtain ⟨rfl, -⟩ := List.append_inj' heq rfl
    exact h before l after rfl

/-! ### Dropping blanks at line ends -/

open Layout.Sink (stripLineEnds)

/-- There is nothing but blanks among blanks. -/
theorem not_mem_blanks {c : Char} (h : c ≠ ' ') (n : Nat) : c ∉ List.replicate n ' ' :=
  fun hmem => h (List.eq_of_mem_replicate hmem)

/-- A blank is dropped if nothing is left of its line behind it. -/
theorem stripLineEnds_cons (c : Char) (cs : List Char) :
    stripLineEnds (c :: cs) =
      if (c = ' ' ∨ c = '\t') ∧ (stripLineEnds cs = [] ∨ (stripLineEnds cs).head? = some '\n') then
        stripLineEnds cs
      else c :: stripLineEnds cs := rfl

/-- Dropping blanks at line ends adds no character. -/
theorem subset_stripLineEnds (cs : List Char) : stripLineEnds cs ⊆ cs := by
  induction cs with
  | nil => exact List.Subset.refl _
  | cons c cs ih =>
    rw [stripLineEnds_cons]
    split
    · exact List.Subset.trans ih (List.subset_cons_self c cs)
    · exact List.cons_subset_cons c ih

/-- Dropping blanks at line ends leaves the braces as they are. -/
theorem nest_stripLineEnds (a : Nat) (cs : List Char) : nest a (stripLineEnds cs) = nest a cs := by
  induction cs generalizing a with
  | nil => rfl
  | cons c cs ih =>
    rw [stripLineEnds_cons]
    split
    · rename_i h
      have hopening : c ≠ '\x7b' := by rcases h.1 with rfl | rfl <;> decide
      have hclosing : c ≠ '\x7d' := by rcases h.1 with rfl | rfl <;> decide
      rw [ih, nest_cons, if_neg hopening, if_neg hclosing]
    · rw [nest_cons, nest_cons, ih, ih, ih]

/-- Dropping blanks at line ends leaves what a text opens as it is. -/
theorem opened_stripLineEnds (cs : List Char) : opened (stripLineEnds cs) = opened cs := by
  induction cs with
  | nil => rfl
  | cons c cs ih =>
    have hcons (ds : List Char) : opened (c :: ds) = opened [c] + opened ds := opened_append [c] ds
    rw [stripLineEnds_cons]
    split
    · rename_i h
      have hzero : opened [c] = 0 := by rcases h.1 with rfl | rfl <;> decide
      rw [hcons cs, hzero, ih, Int.zero_add]
    · rw [hcons, hcons cs, ih]

/-- Line by line. -/
theorem stripLineEnds_append_newline {l : List Char} (hl : '\n' ∉ l) (cs : List Char) :
    stripLineEnds (l ++ '\n' :: cs) = stripLineEnds l ++ '\n' :: stripLineEnds cs := by
  induction l with
  | nil =>
    show stripLineEnds ('\n' :: cs) = _
    rw [stripLineEnds_cons, if_neg (fun h => absurd h.1 (by decide))]
    rfl
  | cons c l ih =>
    rw [List.mem_cons, not_or] at hl
    show stripLineEnds (c :: (l ++ '\n' :: cs)) = _
    rw [stripLineEnds_cons, stripLineEnds_cons, ih hl.2]
    cases h : stripLineEnds l with
    | nil => simp only [List.nil_append, List.head?_cons, or_true, true_or, and_true]; split <;> rfl
    | cons d ds =>
      have hd : d ≠ '\n' := by
        rintro rfl
        exact hl.2 (subset_stripLineEnds l (h ▸ List.mem_cons_self))
      have hhead : ¬((c = ' ' ∨ c = '\t') ∧ (d :: ds = [] ∨ (d :: ds).head? = some '\n')) := by
        simp [hd]
      rw [if_neg hhead, if_neg (by simpa using fun _ => hd)]
      rfl

/-- Nothing is left of a line of blanks. -/
theorem stripLineEnds_of_blank {l : List Char} (h : ∀ c ∈ l, c = ' ') : stripLineEnds l = [] := by
  induction l with
  | nil => rfl
  | cons c l ih =>
    rw [stripLineEnds_cons, ih fun d hd => h d (List.mem_cons_of_mem c hd),
      if_pos ⟨Or.inl (h c List.mem_cons_self), Or.inl rfl⟩]

/-- What follows the first character that is no white space does not change what stands in front. -/
theorem stripLineEnds_append_cons (n : Nat) {c : Char} (hc : isBlank c = false) (rest : List Char) :
    stripLineEnds (List.replicate n ' ' ++ c :: rest) =
      List.replicate n ' ' ++ c :: stripLineEnds rest := by
  have hkept : stripLineEnds (c :: rest) = c :: stripLineEnds rest := by
    rw [stripLineEnds_cons, if_neg]
    rintro ⟨rfl | rfl, -⟩
    · exact absurd hc (by decide)
    · exact absurd hc (by decide)
  have hnewline : c ≠ '\n' := by
    rintro rfl
    exact absurd hc (by decide)
  induction n with
  | zero => exact hkept
  | succ n ih =>
    rw [List.replicate_succ, List.cons_append, stripLineEnds_cons, ih, if_neg]
    · rfl
    · rintro ⟨-, h | h⟩
      · simp at h
      · cases n with
        | zero => exact hnewline (by simpa using h)
        | succ n => simp [List.replicate_succ] at h

/-- An indented line stays one without the blanks at its end, below any text that opens as many
braces. -/
theorem Indented.strip {k : Nat} {above above' line : List Char} (h : Indented k above line)
    (habove : opened above' = opened above) : Indented k above' (stripLineEnds line) := by
  obtain ⟨d, c, rest, rfl, hc, hd⟩ := h
  refine ⟨d, c, stripLineEnds rest, stripLineEnds_append_cons _ hc rest, hc, ?_⟩
  rw [habove]
  exact hd

/-! ### Lines put together -/

/-- Lines, each ended by a line break, and the last line. -/
def joinLines (lines : List (List Char)) (last : List Char) : List Char :=
  lines.flatMap (· ++ ['\n']) ++ last

/-- The first of joined lines comes first, with its line break. -/
theorem joinLines_cons (l : List Char) (lines : List (List Char)) (last : List Char) :
    joinLines (l :: lines) last = l ++ '\n' :: joinLines lines last := by
  simp [joinLines]

/-- The last of joined lines goes in front of what follows them, with its line break. -/
theorem joinLines_concat (l : List Char) (lines : List (List Char)) (last : List Char) :
    joinLines (lines ++ [l]) last = joinLines lines (l ++ '\n' :: last) := by
  simp [joinLines]

/-- The line breaks between joined lines leave the braces as they are. -/
theorem nest_joinLines (a : Nat) (lines : List (List Char)) (last : List Char) :
    nest a (joinLines lines last) = nest a (lines.flatten ++ last) := by
  induction lines generalizing a with
  | nil => rfl
  | cons l lines ih =>
    have hnewline (b : Nat) (cs : List Char) : nest b ('\n' :: cs) = nest b cs := by
      rw [nest_cons, if_neg (by decide), if_neg (by decide)]
    rw [joinLines_cons, List.flatten_cons, List.append_assoc, nest_append, nest_append]
    refine congrArg _ (funext fun b => ?_)
    rw [hnewline, ih]

/-- Lines that are joined are the lines of the text. -/
theorem splitOn_joinLines {lines : List (List Char)} {last : List Char}
    (hlines : ∀ l ∈ lines, '\n' ∉ l) (hlast : '\n' ∉ last) :
    (joinLines lines last).splitOn '\n' = lines ++ [last] := by
  induction lines with
  | nil => exact List.splitOn_eq_singleton hlast
  | cons l lines ih =>
    have hl : '\n' ∉ l := hlines l List.mem_cons_self
    rw [joinLines_cons, List.splitOn_append_cons_self_of_not_mem hl,
      ih fun m hm => hlines m (List.mem_cons_of_mem l hm)]
    rfl

/-- Blanks at the ends of joined lines are dropped line by line. -/
theorem stripLineEnds_joinLines {lines : List (List Char)} (hlines : ∀ l ∈ lines, '\n' ∉ l)
    (last : List Char) : stripLineEnds (joinLines lines last) =
      joinLines (lines.map stripLineEnds) (stripLineEnds last) := by
  induction lines with
  | nil => rfl
  | cons l lines ih =>
    have hl : '\n' ∉ l := hlines l List.mem_cons_self
    rw [joinLines_cons, stripLineEnds_append_newline hl,
      ih fun m hm => hlines m (List.mem_cons_of_mem l hm), List.map_cons, joinLines_cons]

/-- Lines without the blanks at their ends open as many braces. -/
theorem opened_flatten_strip (lines : List (List Char)) :
    opened (lines.map stripLineEnds).flatten = opened lines.flatten := by
  induction lines with
  | nil => rfl
  | cons l lines ih =>
    rw [List.map_cons, List.flatten_cons, List.flatten_cons, opened_append, opened_append,
      opened_stripLineEnds, ih]

/-- Lines that obey the law while they are being written make a text that obeys it when the blanks
at line ends are dropped. -/
theorem braced_stripLineEnds {k : Nat} {lines : List (List Char)} {last : List Char}
    (h : Ruled k (lines ++ [last])) (hbalanced : Balanced (joinLines lines last)) :
    Braced k (String.ofList (stripLineEnds (joinLines lines last))) := by
  have hline : ∀ l ∈ lines ++ [last], '\n' ∉ l := by
    intro l hl
    obtain ⟨before, after, heq⟩ := List.append_of_mem hl
    exact (h before l after heq).1
  have hlines : ∀ l ∈ lines, '\n' ∉ l := fun l hl => hline l (List.mem_append_left _ hl)
  have hstripped : ∀ l ∈ lines.map stripLineEnds, '\n' ∉ l := by
    intro l hl hnewline
    obtain ⟨m, hm, rfl⟩ := List.mem_map.1 hl
    exact hlines m hm (subset_stripLineEnds m hnewline)
  have hlast : '\n' ∉ stripLineEnds last := fun hnewline =>
    hline last (by simp) (subset_stripLineEnds last hnewline)
  constructor
  · rw [String.toList_ofList]
    unfold Balanced
    rw [nest_stripLineEnds]
    exact hbalanced
  intro before line after heq hne
  rw [String.toList_ofList, stripLineEnds_joinLines hlines, splitOn_joinLines hstripped hlast]
    at heq
  -- the line is a line that was written, without the blanks at its end
  have heq : (lines ++ [last]).map stripLineEnds = before ++ line :: after := by simpa using heq
  obtain ⟨before', rest, hsplit, rfl, hrest⟩ := List.map_eq_append_iff.1 heq
  obtain ⟨line', after', rfl, rfl, -⟩ := List.map_eq_cons_iff.1 hrest
  obtain ⟨-, hblank | hindented⟩ := h before' line' after' hsplit
  · exact absurd (stripLineEnds_of_blank hblank) hne
  · exact hindented.strip (opened_flatten_strip before')

end CodeSample.Text

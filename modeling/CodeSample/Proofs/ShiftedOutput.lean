import CodeSample.Proofs.SideBySide
import CodeSample.Proofs.TextLines

/-!
# Output that is moved to the right

What a fragment adds to a sink depends on the level in one way only. At a level that is `k` higher
the same characters are added, with `k` blanks more after each line break. That takes levels at
which no blanks are missing: a line break at a level below zero is followed by none, and the levels
above it lose some of theirs.

* `Fragment.isInward` says that all indentations in a fragment go to the right;
* `Sink.Shifted` is how two sinks go on from two texts, one of them at a higher level, and
  `Simulation.shifted`: it is kept by such fragments;
* `Fragment.exists_shifted` is what becomes of a fragment that is written at a higher level.
-/

namespace CodeSample.Layout

open Text (padBreaks)

/-! ### Indentation to the right -/

namespace Indent

/-- Whether it is a whole number of blanks and not a negative one. -/
def isInward : Indent → Bool
  | blanks n => decide (0 ≤ n)
  | _ => false

/-- The same indentation, which is a whole number of blanks and not a negative one. -/
def Inward (i' i : Indent) : Prop := i' = i ∧ i.isInward = true

/-- An inward indentation is not negative. -/
theorem Inward.nonneg {i' i : Indent} (h : Inward i' i) : 0 ≤ i.columns := by
  obtain ⟨-, h⟩ := h
  cases i with
  | blanks n => exact of_decide_eq_true h
  | fraction | unfit => exact Int.le_refl 0

/-- An inward indentation is a whole number of blanks. -/
theorem Inward.isWhole {i' i : Indent} (h : Inward i' i) : i.isWhole = true := by
  obtain ⟨-, h⟩ := h
  cases i with
  | blanks n => rfl
  | fraction | unfit => cases h

/-- A number of blanks is an inward indentation. -/
theorem inward_blanks (k : Nat) : Inward (.blanks k) (.blanks k) :=
  ⟨rfl, decide_eq_true (Int.natCast_nonneg k)⟩

end Indent

namespace Fragment

mutual

/-- Whether all indentations in a fragment are whole numbers of blanks and not negative. -/
def isInward : Fragment → Bool
  | tree front children style => allInward front && allInward children && style.indent.isInward
  | _ => true

/-- Whether all indentations in some fragments are whole numbers of blanks and not negative. -/
def allInward : List Fragment → Bool
  | [] => true
  | f :: fs => isInward f && allInward fs

end

mutual

/-- A fragment that is indented inward is alike itself. -/
theorem alike_of_isInward : ∀ {f : Fragment}, f.isInward = true → f.Alike Indent.Inward f
  | .nothing, _ => .nothing
  | .text s, _ => .text s
  | .alien, _ => .alien
  | .tree front children style, h => by
    rw [isInward, Bool.and_eq_true, Bool.and_eq_true] at h
    exact .tree style (alike_of_allInward h.1.1) (alike_of_allInward h.1.2) ⟨rfl, h.2⟩

/-- Fragments that are indented inward are alike themselves. -/
theorem alike_of_allInward : ∀ {fs : List Fragment}, allInward fs = true →
    List.Forall₂ (Fragment.Alike Indent.Inward) fs fs
  | [], _ => .nil
  | f :: fs, h => by
    rw [allInward, Bool.and_eq_true] at h
    exact .cons (alike_of_isInward h.1) (alike_of_allInward h.2)

end

end Fragment

/-! ### Two sinks -/

namespace Sink

/-- Two sinks have gone on from two texts with the same characters, one of them at a level that is
`k` higher. -/
structure Shifted (k : Nat) (base' base : List Char) (s' s : Sink) : Prop where
  level : s'.level = s.level + k
  nonneg : 0 ≤ s.level
  blank : s'.line.toList.all Text.isBlank = s.line.toList.all Text.isBlank
  written : ∃ added : List Char,
    s.written.toList = base ++ added ∧ s'.written.toList = base' ++ padBreaks k added

variable {k : Nat} {base' base : List Char} {s' s : Sink}

/-- The blanks after a line break are `k` more at a level that is `k` higher. -/
theorem Shifted.margin (h : s'.Shifted k base' base s) :
    (Sink.margin s'.level).toList = List.replicate k ' ' ++ (Sink.margin s.level).toList := by
  have hnat : s'.level.toNat = k + s.level.toNat := by
    rw [h.level, Int.toNat_add h.nonneg (Int.natCast_nonneg k), Int.toNat_natCast, Nat.add_comm]
  rw [toList_margin, toList_margin, hnat, List.replicate_add]

/-- A character written into two sinks keeps them shifted: a line break is followed by `k` blanks
more. -/
theorem Shifted.putChar (c : Char) (h : s'.Shifted k base' base s) :
    (s'.putChar c).Shifted k base' base (s.putChar c) := by
  have hmargin := h.margin
  obtain ⟨hlevel, hnonneg, hblank, added, hadded, hadded'⟩ := h
  unfold Sink.putChar
  by_cases hc : c = '\n'
  · rw [if_pos hc, if_pos hc]
    refine ⟨hlevel, hnonneg, ?_, added ++ '\n' :: (Sink.margin s.level).toList, ?_, ?_⟩
    · rw [all_isBlank_margin, all_isBlank_margin]
    · rw [String.toList_append, String.toList_push, hadded]
      simp
    · rw [String.toList_append, String.toList_push, hadded', hmargin, Text.padBreaks_append,
        Text.padBreaks_newline, Text.padBreaks_of_not_mem k (newline_not_mem_margin s.level)]
      simp
  · rw [if_neg hc, if_neg hc]
    refine ⟨hlevel, hnonneg, ?_, added ++ [c], ?_, ?_⟩
    · rw [String.toList_push, String.toList_push, List.all_append, List.all_append, hblank]
    · rw [String.toList_push, hadded, List.append_assoc]
    · rw [String.toList_push, hadded', Text.padBreaks_append, Text.padBreaks_cons k hc,
        List.append_assoc]
      rfl

/-- Being shifted is kept by what is indented to the right only. -/
def Simulation.shifted (k : Nat) (base' base : List Char) : Sink.Simulation where
  holds := Shifted k base' base
  indent := Indent.Inward
  putChar c h := h.putChar c
  blank h := h.blank
  push {s' s i' i} hi h := by
    have hlevel : (s'.push i'.columns).level = (s.push i.columns).level + k := by
      show s'.level + i'.columns = s.level + i.columns + k
      rw [h.level, hi.1]
      omega
    exact ⟨hlevel, Int.add_nonneg h.nonneg hi.nonneg, h.blank, h.written⟩
  push_zero {s' s} h := by
    have hlevel : (s'.push 0).level = (s.push 0).level + k := by
      show s'.level + 0 = s.level + 0 + k
      rw [h.level]
      omega
    exact ⟨hlevel, Int.add_nonneg h.nonneg (Int.le_refl 0), h.blank, h.written⟩
  restore h hu := ⟨h.level, h.nonneg, hu.blank, hu.written⟩

end Sink

/-- Indentation is kept apart from what is indented. A fragment that holds only texts, and in which
no indentation is negative, is written into a sink whose level is not below zero, and into the same
sink after the level has been raised by `k`. What is added is the same but for `k` blanks right
after each line break, and there are as many of these. -/
theorem Fragment.exists_shifted {f : Fragment} (hplain : f.isPlain = true)
    (hinward : f.isInward = true) (k : Nat) {s : Sink} (hs : 0 ≤ s.level) :
    ∃ added : List Char,
      s.write? true f = .ok (s.write f) ∧
      (s.write f).written.toList = s.written.toList ++ added ∧
      (s.push k).write? true f = .ok ((s.push k).write f) ∧
      ((s.push k).write f).written.toList = s.written.toList ++ padBreaks k added ∧
      (padBreaks k added).count '\n' = added.count '\n' := by
  have hstart : (s.push k).Shifted k s.written.toList s.written.toList s := by
    refine ⟨rfl, hs, rfl, [], ?_, ?_⟩
    · rw [List.append_nil]
    · exact (List.append_nil _).symm
  obtain ⟨added, hadded, hshifted⟩ :=
    ((Sink.Simulation.shifted k _ _).write (alike_of_isInward hinward) hstart).written
  exact ⟨added, Sink.write?_of_isPlain s hplain, hadded, Sink.write?_of_isPlain _ hplain, hshifted,
    Text.count_padBreaks k added⟩

/-- A loop with a block in it, written where two blanks stand on the line. -/
def Fragment.countdown : Fragment :=
  .tree [.text "while (n > 0)", .text "\n\x7b"]
    [.line [.text "n -= 1;"], .tree [] [.line [.text "log(n);\n"]] { fresh := true }]
    { indent := .blanks 2, closing := some "\n\x7d" }

/-- The countdown is written three blanks further to the right at a level that is three higher. -/
theorem Fragment.exists_shifted_countdown :
    countdown.isPlain = true ∧ countdown.isInward = true ∧ 0 ≤ (Sink.push {} 2).level ∧
    ∃ added : List Char,
      ((Sink.push {} 2).write countdown).written.toList = added ∧
      (((Sink.push {} 2).push 3).write countdown).written.toList = padBreaks 3 added := by
  have hplain : countdown.isPlain = true := by decide
  have hinward : countdown.isInward = true := by decide
  have hlevel : 0 ≤ (Sink.push {} 2).level := by decide
  obtain ⟨added, -, hadded, -, hshifted, -⟩ := exists_shifted hplain hinward 3 hlevel
  exact ⟨hplain, hinward, hlevel, added, hadded, hshifted⟩

end CodeSample.Layout

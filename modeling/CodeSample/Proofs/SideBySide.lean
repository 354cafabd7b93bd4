import CodeSample.Proofs.DroppedRules
import CodeSample.Proofs.Indentation

/-!
# Sinks side by side

Fragments that are the same but for their indentation, written into two sinks. What the sinks have
to do with one another stays so if every single character keeps it, and every change of the level.

* `Fragment.Alike` says that two fragments are the same but for indentations that are related;
* `Sink.Simulation` is a relation of sinks that is kept, and `Simulation.write` what follows for
  fragments;
* `Simulation.ofInvariant` is the case of a single sink with an invariant;
* `Likeness.upTo` is the likeness of two renderings of a tree, with outputs that are the same but
  for their indentation.
-/

namespace CodeSample

namespace Layout

/-! ### Fragments that are the same but for their indentation -/

/-- Two fragments are the same but for the indentations in them, and corresponding indentations are
related. -/
inductive Fragment.Alike (D : Indent → Indent → Prop) : Fragment → Fragment → Prop where
  | nothing : Alike D .nothing .nothing
  | text (s : String) : Alike D (.text s) (.text s)
  | alien : Alike D .alien .alien
  | tree {front' front children' children : List Fragment} {i' i : Indent} (style : Style)
    (hfront : List.Forall₂ (Alike D) front' front)
    (hchildren : List.Forall₂ (Alike D) children' children) (hi : D i' i) :
    Alike D (.tree front' children' { style with indent := i' })
      (.tree front children { style with indent := i })

namespace Fragment

variable {D : Indent → Indent → Prop} {f' f : Fragment} {fs' fs : List Fragment}

/-- Of two fragments that are alike, both are there or neither is. -/
theorem Alike.isThere (h : f'.Alike D f) : f'.isThere = f.isThere := by
  cases h <;> rfl

/-- Of two fragments that are alike, both ask for a line of their own or neither does. -/
theorem Alike.isFresh (h : f'.Alike D f) : f'.isFresh = f.isFresh := by
  cases h <;> rfl

/-- Of fragments that are alike pairwise, one is there on both sides or on neither. -/
theorem any_isThere_of_alike (h : List.Forall₂ (Alike D) fs' fs) :
    fs'.any isThere = fs.any isThere := by
  induction h with
  | nil => rfl
  | cons h _ ih => rw [List.any_cons, List.any_cons, h.isThere, ih]

mutual

/-- The same fragments are passed over. -/
theorem Alike.isSilent : ∀ {f' f : Fragment}, f'.Alike D f → f'.isSilent = f.isSilent
  | _, .nothing, .nothing => rfl
  | _, .text _, .text _ => rfl
  | _, .alien, .alien => rfl
  | _, .tree _ _ _, .tree style hfront hchildren _ => by
    rw [Fragment.isSilent, Fragment.isSilent, any_isThere_of_alike hfront,
      allSilent_of_alike hchildren]

/-- Fragments that are alike pairwise are all passed over on both sides or on neither. -/
theorem allSilent_of_alike : ∀ {fs' fs : List Fragment}, List.Forall₂ (Alike D) fs' fs →
    allSilent fs' = allSilent fs
  | _, [], .nil => rfl
  | _, _ :: _, .cons h hs => by
    rw [allSilent, allSilent, Alike.isSilent h, allSilent_of_alike hs]

end

mutual

/-- If all indentations are whole numbers, the same fragments hold only texts. -/
theorem Alike.isPlain (hD : ∀ i' i, D i' i → i'.isWhole = true ∧ i.isWhole = true) :
    ∀ {f' f : Fragment}, f'.Alike D f → f'.isPlain = f.isPlain
  | _, .nothing, .nothing => rfl
  | _, .text _, .text _ => rfl
  | _, .alien, .alien => rfl
  | _, .tree _ _ _, .tree style hfront hchildren hi => by
    rw [Fragment.isPlain, Fragment.isPlain, allPlain_of_alike hD hfront,
      allPlain_of_alike hD hchildren, (hD _ _ hi).1, (hD _ _ hi).2]

/-- Fragments that are alike pairwise hold only texts on both sides or on neither, if the
indentations are whole. -/
theorem allPlain_of_alike (hD : ∀ i' i, D i' i → i'.isWhole = true ∧ i.isWhole = true) :
    ∀ {fs' fs : List Fragment}, List.Forall₂ (Alike D) fs' fs → allPlain fs' = allPlain fs
  | _, [], .nil => rfl
  | _, _ :: _, .cons h hs => by
    rw [allPlain, allPlain, Alike.isPlain hD h, allPlain_of_alike hD hs]

end

mutual

/-- A fragment is alike itself. -/
theorem alike_self (hD : ∀ i, D i i) : ∀ f : Fragment, f.Alike D f
  | .nothing => .nothing
  | .text s => .text s
  | .alien => .alien
  | .tree front children style =>
    .tree style (alike_self_all hD front) (alike_self_all hD children) (hD style.indent)

/-- Fragments are alike themselves if every indentation is related to itself. -/
theorem alike_self_all (hD : ∀ i, D i i) : ∀ fs : List Fragment, List.Forall₂ (Alike D) fs fs
  | [] => .nil
  | f :: fs => .cons (alike_self hD f) (alike_self_all hD fs)

end

mutual

/-- Fragments that are alike are so the other way round. -/
theorem Alike.symm : ∀ {f' f : Fragment}, f'.Alike D f → f.Alike (fun i i' => D i' i) f'
  | _, .nothing, .nothing => .nothing
  | _, .text _, .text s => .text s
  | _, .alien, .alien => .alien
  | _, .tree _ _ _, .tree style hfront hchildren hi =>
    .tree style (alike_symm_all hfront) (alike_symm_all hchildren) hi

/-- Fragments that are alike pairwise are so the other way round. -/
theorem alike_symm_all : ∀ {fs' fs : List Fragment}, List.Forall₂ (Alike D) fs' fs →
    List.Forall₂ (Alike fun i i' => D i' i) fs fs'
  | _, [], .nil => .nil
  | _, _ :: _, .cons h hs => .cons (Alike.symm h) (alike_symm_all hs)

end

/-! ### Fragments that cannot be written -/

/-- Fragments none of which is there hold only texts. -/
theorem allPlain_of_not_isThere {fs : List Fragment} (h : fs.any isThere = false) :
    allPlain fs = true := by
  induction fs with
  | nil => rfl
  | cons f fs ih =>
    rw [List.any_cons, Bool.or_eq_false_iff] at h
    rw [allPlain, ih h.2, Bool.and_true]
    cases f <;> first | rfl | cases h.1

mutual

/-- Nothing in a fragment that is passed over is no text. -/
theorem Alike.isPlain_of_isSilent (hD : ∀ i' i, D i' i → i.isWhole = true) :
    ∀ {f' f : Fragment}, f'.Alike D f → f.isSilent = true → f.isPlain = true
  | _, .nothing, .nothing, _ => rfl
  | _, .text _, .text _, _ => rfl
  | _, .alien, .alien, h => by cases h
  | _, .tree _ _ _, .tree style hfront hchildren hi, h => by
    rw [Fragment.isSilent, Bool.and_eq_true, Bool.and_eq_true, Bool.not_eq_true'] at h
    rw [Fragment.isPlain, allPlain_of_not_isThere h.1.1,
      allPlain_of_allSilent hD hchildren h.1.2, hD _ _ hi]
    rfl

/-- Fragments that are passed over hold only texts, if the indentations are whole. -/
theorem allPlain_of_allSilent (hD : ∀ i' i, D i' i → i.isWhole = true) :
    ∀ {fs' fs : List Fragment}, List.Forall₂ (Alike D) fs' fs → allSilent fs = true →
      allPlain fs = true
  | _, [], .nil, _ => rfl
  | _, _ :: _, .cons h hs, hsilent => by
    rw [allSilent, Bool.and_eq_true] at hsilent
    rw [allPlain, Alike.isPlain_of_isSilent hD h hsilent.1, allPlain_of_allSilent hD hs hsilent.2]
    rfl

end

mutual

/-- Of a fragment that is indented by whole numbers, only what is no text keeps it from being
written. -/
theorem Alike.write?_of_not_isPlain (hD : ∀ i' i, D i' i → i.isWhole = true) :
    ∀ {f' f : Fragment}, f'.Alike D f → f.isPlain = false →
      ∀ s : Sink, s.write? true f = .error .alien
  | _, .nothing, .nothing, h, _ => by cases h
  | _, .text _, .text _, h, _ => by cases h
  | _, .alien, .alien, _, _ => rfl
  | _, .tree front children _, @Alike.tree _ _ _ _ _ _ i style hfront hchildren hi, h, s => by
    have hwhole := hD _ _ hi
    have hunfit : i ≠ .unfit := fun he => by simp [he, Indent.isWhole] at hwhole
    have hfraction : i ≠ .fraction := fun he => by simp [he, Indent.isWhole] at hwhole
    rw [Fragment.isPlain, hwhole, Bool.and_true, Bool.and_eq_false_iff] at h
    rw [Sink.write?]
    by_cases hplain : allPlain front = true
    · rw [Sink.writeAll?_of_allPlain s hplain]
      have herror (s : Sink) :
          s.writeChildren? true style.separator true children = .error .alien :=
        writeChildren?_of_not_allPlain hD hchildren (h.resolve_left (by rw [hplain]; decide)) s
      simp [bind, Except.bind, hunfit, hfraction, herror]
    · rw [writeAll?_of_not_allPlain hD hfront (Bool.eq_false_iff.2 hplain) s]
      rfl

/-- Fragments that do not hold only texts cannot be written: the first that is alien is a fault. -/
theorem writeAll?_of_not_allPlain (hD : ∀ i' i, D i' i → i.isWhole = true) :
    ∀ {fs' fs : List Fragment}, List.Forall₂ (Alike D) fs' fs → allPlain fs = false →
      ∀ s : Sink, s.writeAll? true fs = .error .alien
  | _, [], .nil, h, _ => by cases h
  | _, f :: _, .cons hf hfs, h, s => by
    rw [allPlain, Bool.and_eq_false_iff] at h
    rw [Sink.writeAll?]
    by_cases hplain : f.isPlain = true
    · rw [Sink.write?_of_isPlain s hplain]
      exact writeAll?_of_not_allPlain hD hfs (h.resolve_left (by rw [hplain]; decide)) _
    · rw [Alike.write?_of_not_isPlain hD hf (Bool.eq_false_iff.2 hplain) s]
      rfl

/-- Children that do not hold only texts cannot be written, with whatever separator. -/
theorem writeChildren?_of_not_allPlain (hD : ∀ i' i, D i' i → i.isWhole = true) :
    ∀ {fs' fs : List Fragment}, List.Forall₂ (Alike D) fs' fs → allPlain fs = false →
      ∀ {separator : Option String} {first : Bool} (s : Sink),
        s.writeChildren? true separator first fs = .error .alien
  | _, [], .nil, h, _, _, _ => by cases h
  | _, f :: fs, .cons hf hfs, h, separator, first, s => by
    rw [allPlain, Bool.and_eq_false_iff] at h
    have hrest (hplain : f.isPlain = true) (first : Bool) (s : Sink) :
        s.writeChildren? true separator first fs = .error .alien :=
      writeChildren?_of_not_allPlain hD hfs (h.resolve_left (by rw [hplain]; decide)) s
    rw [Sink.writeChildren?]
    by_cases hsilent : f.isSilent = true
    · rw [if_pos hsilent]
      exact hrest (hf.isPlain_of_isSilent hD hsilent) first s
    rw [if_neg hsilent]
    have hwrite (s : Sink) : (do
        let s ← s.write? true f
        s.writeChildren? true separator false fs) = .error .alien := by
      by_cases hplain : f.isPlain = true
      · rw [Sink.write?_of_isPlain s hplain]
        exact hrest hplain false _
      · rw [Alike.write?_of_not_isPlain hD hf (Bool.eq_false_iff.2 hplain) s]
        rfl
    cases first <;> cases separator.isNone && f.isFresh <;>
      simp only [Sink.put?_true, Sink.freshLine?_true] <;> exact hwrite _

end

/-- A fragment that is indented by whole numbers is laid out if it holds only texts, and no other
one is. -/
theorem Alike.output_eq (hD : ∀ i' i, D i' i → i.isWhole = true) (h : f'.Alike D f) :
    f.output = if f.isPlain then .ok f.render else .error .noProperty := by
  split
  · exact output_of_isPlain ‹_›
  · unfold output
    rw [h.write?_of_not_isPlain hD (Bool.eq_false_iff.2 ‹_›)]
    rfl

end Fragment

/-! ### Sinks that are written into -/

/-- A relation of two sinks that is kept by every character written into both of them, and by the
changes of the level in trees. Related sinks break the line at the same places. -/
structure Sink.Simulation where
  holds : Sink → Sink → Prop
  indent : Indent → Indent → Prop
  putChar : ∀ {s' s : Sink} (c : Char), holds s' s → holds (s'.putChar c) (s.putChar c)
  blank : ∀ {s' s : Sink}, holds s' s →
    s'.line.toList.all Text.isBlank = s.line.toList.all Text.isBlank
  push : ∀ {s' s : Sink} {i' i : Indent}, indent i' i → holds s' s →
    holds (s'.push i'.columns) (s.push i.columns)
  push_zero : ∀ {s' s : Sink}, holds s' s → holds (s'.push 0) (s.push 0)
  restore : ∀ {s' s u' u : Sink}, holds s' s → holds u' u →
    holds { u' with level := s'.level, outer := s'.outer }
      { u with level := s.level, outer := s.outer }

namespace Sink.Simulation

variable (S : Sink.Simulation) {s' s : Sink}

/-- Related sinks stay so when a text is written into both, character by character. -/
theorem put (t : String) (h : S.holds s' s) : S.holds (s'.put t) (s.put t) := by
  unfold Sink.put
  induction t.toList generalizing s' s with
  | nil => exact h
  | cons c cs ih => exact ih (S.putChar c h)

/-- Related sinks stay so when both come to the start of a line. -/
theorem freshLine (h : S.holds s' s) : S.holds s'.freshLine s.freshLine := by
  unfold Sink.freshLine
  rw [S.blank h]
  split
  · exact h
  · exact S.put "\n" h

mutual

/-- Fragments that are the same but for their indentation keep the relation. -/
theorem write : ∀ {s' s : Sink} {f' f : Fragment}, f'.Alike S.indent f → S.holds s' s →
    S.holds (s'.write f') (s.write f)
  | _, _, _, .nothing, .nothing, h => h
  | _, _, _, .alien, .alien, h => h
  | _, _, _, .text t, .text _, h => S.put t h
  | s', s, _, .tree front children _, .tree style hfront hchildren hi, h => by
    rw [Sink.write, Sink.write, Fragment.allSilent_of_alike hchildren]
    have hafter := writeAll hfront h
    generalize s'.writeAll _ = u', s.writeAll front = u at hafter
    dsimp only
    rw [pop_writeChildren, pop_writeChildren]
    refine S.put _ (S.restore hafter (writeChildren hchildren ?_))
    split
    · exact S.push_zero hafter
    · exact S.push hi hafter

/-- Related sinks stay so when fragments that are alike are written into them. -/
theorem writeAll : ∀ {s' s : Sink} {fs' fs : List Fragment},
    List.Forall₂ (Fragment.Alike S.indent) fs' fs → S.holds s' s →
      S.holds (s'.writeAll fs') (s.writeAll fs)
  | _, _, _, [], .nil, h => h
  | _, _, _, _ :: _, .cons hf hfs, h => by
    rw [Sink.writeAll, Sink.writeAll]
    exact writeAll hfs (write hf h)

/-- Related sinks stay so when children that are alike are written into them with one separator. -/
theorem writeChildren : ∀ {s' s : Sink} {separator : Option String} {first : Bool}
    {fs' fs : List Fragment}, List.Forall₂ (Fragment.Alike S.indent) fs' fs → S.holds s' s →
      S.holds (s'.writeChildren separator first fs') (s.writeChildren separator first fs)
  | _, _, _, _, _, [], .nil, h => h
  | s', s, separator, first, _, f :: _, .cons hf hfs, h => by
    rw [Sink.writeChildren, Sink.writeChildren, hf.isSilent, hf.isFresh]
    split
    · exact writeChildren hfs h
    have hput : S.holds (if first then s' else s'.put (separator.getD ""))
        (if first then s else s.put (separator.getD "")) := by
      split
      · exact h
      · exact S.put _ h
    generalize (if first then s' else s'.put (separator.getD "")) = u',
      (if first then s else s.put (separator.getD "")) = u at hput
    have hfresh : S.holds (if separator.isNone && f.isFresh then u'.freshLine else u')
        (if separator.isNone && f.isFresh then u.freshLine else u) := by
      split
      · exact S.freshLine hput
      · exact hput
    exact writeChildren hfs (write hf hfresh)

end

/-- A single sink with an invariant that every character keeps, and that does not depend on the
level. -/
def ofInvariant (P : Sink → Prop) (putChar : ∀ {s : Sink} (c : Char), P s → P (s.putChar c))
    (levels : ∀ {s : Sink} (level : Int) (outer : List Int), P s → P { s with level, outer }) :
    Sink.Simulation where
  holds s' s := s' = s ∧ P s
  indent := Eq
  putChar c h := ⟨congrArg (Sink.putChar · c) h.1, putChar c h.2⟩
  blank h := by rw [h.1]
  push hi h := ⟨by rw [hi, h.1], levels _ _ h.2⟩
  push_zero h := ⟨by rw [h.1], levels _ _ h.2⟩
  restore h hu := ⟨by rw [h.1, hu.1], levels _ _ hu.2⟩

/-- An invariant that every character keeps, and that does not depend on the level, is kept by every
fragment. -/
theorem invariant_write {P : Sink → Prop}
    (putChar : ∀ {s : Sink} (c : Char), P s → P (s.putChar c))
    (levels : ∀ {s : Sink} (level : Int) (outer : List Int), P s → P { s with level, outer })
    (h : P s) (f : Fragment) : P (s.write f) :=
  ((ofInvariant P putChar levels).write (Fragment.alike_self (fun _ => rfl) f) ⟨rfl, h⟩).2

end Sink.Simulation

end Layout

/-! ### Renderings of a tree that differ in their indentation -/

open Layout (Fragment Indent)

/-- Outputs that are the same but for their indentation. -/
def Likeness.Output.upTo (D : Indent → Indent → Prop) (hD : D (.blanks 0) (.blanks 0)) :
    Likeness.Output where
  fragment := Fragment.Alike D
  indent := D
  nothing := .nothing
  text := .text
  alien := .alien
  tree := .tree
  isEmpty h := h.isSilent
  blank := hD

/-- The likeness of two renderings of a tree whose outputs are the same but for their indentation.
They report the same, and end in the same faults. -/
def Likeness.upTo (D : Indent → Indent → Prop) (hD : D (.blanks 0) (.blanks 0)) (root : Value) :
    Likeness where
  toOutput := .upTo D hD
  node := root.Same
  run R r' r := r'.reports = r.reports ∧ Tally Eq R r'.outcome r.outcome
  alike := Value.Same.alike
  pure h := ⟨rfl, .ok h⟩
  bind {_ _ _ _ _ _ r' r _ _} h hnext := by
    obtain ⟨reports', outcome'⟩ := r'
    obtain ⟨reports, outcome⟩ := r
    obtain ⟨hreports, houtcome⟩ := h
    dsimp only at hreports houtcome
    subst hreports
    cases houtcome with
    | ok ha => exact ⟨congrArg (reports' ++ ·) (hnext _ _ ha).1, (hnext _ _ ha).2⟩
    | error hfault => exact ⟨rfl, .error hfault⟩
  ofExcept h := ⟨rfl, h.mono (fun _ _ h => h.1) fun _ _ h => h⟩
  report message hn := by
    rw [hn.1]
    exact ⟨rfl, .ok trivial⟩
  refuse visitor hn := by
    rw [hn.1]
    exact ⟨rfl, .error rfl⟩

/-- A checker has the same answers for both renderings. -/
theorem Likeness.checkers_upTo {D : Indent → Indent → Prop} {hD : D (.blanks 0) (.blanks 0)}
    {root : Value} (checker : Checker) : (Likeness.upTo D hD root).Checkers checker checker := by
  have same {α : Type} (x : Except Fault α) :
      (Likeness.upTo D hD root).run Eq (liftM x) (liftM x) := by
    refine ⟨rfl, ?_⟩
    cases x with
    | ok a => exact .ok rfl
    | error fault => exact .error rfl
  constructor
  · rintro n' n ⟨rfl, -⟩
    exact same _
  · rintro n' n ⟨rfl, -⟩ -
    exact same _
  · rintro n' n ⟨rfl, -⟩ -
    exact same _

/-- Rendered with indentations that are related, a tree gives outputs that are the same but for
these, with the same diagnostics and faults. -/
theorem CSharp.convert_upTo {D : Indent → Indent → Prop} (hD : D (.blanks 0) (.blanks 0))
    {indent' indent : Indent} (hi : D indent' indent) (preferStruct : Data) (checker : Checker)
    (c : Flags) (root : Value) :
    ((backend indent' preferStruct).convert checker c root).reports =
      ((backend indent preferStruct).convert checker c root).reports ∧
    Tally Eq (Fragment.Alike D) ((backend indent' preferStruct).convert checker c root).outcome
      ((backend indent preferStruct).convert checker c root).outcome := by
  have hflags : Flags.Alike c c :=
    ⟨(Value.alike_same c.className fun _ h => h).mono fun _ _ _ => trivial, rfl⟩
  exact Likeness.convert (alike_backend (L := .upTo D hD root) hi preferStruct)
    (Likeness.checkers_upTo checker) (isLocal indent' preferStruct) (isLocal indent preferStruct)
    hflags (Value.alike_same root fun _ h => h)

end CodeSample

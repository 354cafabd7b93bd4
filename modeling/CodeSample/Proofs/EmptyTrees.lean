import CodeSample.Proofs.LayoutText
import CodeSample.Proofs.StatementRules

/-!
# Empty trees

Whether a tree is empty is read off its parts, whether it writes nothing shows only when it is
written. A fragment among the children counts when it is not empty, one in front of them when it is
there, so that an empty text in front keeps a tree from being empty.

* `Fragment.WritesNothing` says that a fragment leaves an empty sink empty;
* `Fragment.isVoiced` excludes the empty fragments in front of children, at every depth;
* `Sink.write?_of_isSilent` and `Sink.write?_without_child`: an empty fragment leaves every sink as
  it is, and as a child it can be left out;
* `Sink.length_lt_write`: every other voiced fragment makes the written text longer, in every sink;
* `Fragment.isEmpty_iff_writesNothing` is the statement for trees.
-/

namespace CodeSample

namespace Layout

open Fragment (isThere isWritten allSilent allPlain)

/-! ### What leaves no trace -/

namespace Fragment

/-- A fragment can be written, and an empty sink is empty afterwards. -/
def WritesNothing (f : Fragment) : Prop :=
  ∃ s, Sink.write? {} true f = .ok s ∧ s.written = ""

/-- A fragment that can be written writes nothing exactly if nothing has been written behind it. -/
theorem writesNothing_iff {f : Fragment} (hplain : f.isPlain = true) :
    f.WritesNothing ↔ (Sink.write {} f).written = "" := by
  unfold WritesNothing
  rw [Sink.write?_of_isPlain _ hplain]
  constructor
  · rintro ⟨s, hs, hwritten⟩
    cases hs
    exact hwritten
  · intro hwritten
    exact ⟨_, rfl, hwritten⟩

/-- What closes a tree is not written exactly if it is empty or not there. -/
theorem isWritten_eq_false_iff {closing : Option String} :
    isWritten closing = false ↔ closing.getD "" = "" := by
  cases closing with
  | none => exact iff_of_true rfl rfl
  | some t => simp [isWritten]

/-- Two lists of fragments are passed over if both of them are. -/
theorem allSilent_append (fs gs : List Fragment) :
    allSilent (fs ++ gs) = (allSilent fs && allSilent gs) := by
  induction fs with
  | nil => rfl
  | cons f fs ih => rw [List.cons_append, allSilent, allSilent, ih, Bool.and_assoc]

end Fragment

namespace Sink

/-- Writing the empty text changes nothing, and never fails. -/
theorem put?_empty (s : Sink) (breakable : Bool) : s.put? breakable "" = .ok s := by
  unfold put?
  rw [if_pos (by simp)]
  rfl

/-- Fragments none of which is there change nothing, and never fail. -/
theorem writeAll?_of_not_isThere {fs : List Fragment} (h : fs.any isThere = false) (s : Sink)
    (breakable : Bool) : s.writeAll? breakable fs = .ok s := by
  induction fs with
  | nil => rfl
  | cons f fs ih =>
    rw [List.any_cons, Bool.or_eq_false_iff] at h
    cases f <;> first | exact ih h.2 | cases h.1

/-- Children that are passed over change nothing, and never fail. -/
theorem writeChildren?_of_allSilent {fs : List Fragment} (h : allSilent fs = true) (s : Sink)
    (breakable : Bool) (separator : Option String) (first : Bool) :
    s.writeChildren? breakable separator first fs = .ok s := by
  induction fs with
  | nil => rfl
  | cons f fs ih =>
    rw [Fragment.allSilent, Bool.and_eq_true] at h
    rw [writeChildren?, if_pos h.1, ih h.2]

/-- What is passed over among children can be written anywhere, and leaves the sink as it is. -/
theorem write?_of_isSilent {f : Fragment} (h : f.isSilent = true) (s : Sink) (breakable : Bool) :
    s.write? breakable f = .ok s := by
  cases f with
  | nothing => rfl
  | alien => cases h
  | text t =>
    rw [Fragment.isSilent, beq_iff_eq] at h
    rw [h, write?, put?_empty]
  | tree front children style =>
    rw [Fragment.isSilent, Bool.and_eq_true, Bool.and_eq_true, Bool.not_eq_true',
      Bool.not_eq_true'] at h
    obtain ⟨⟨hfront, hchildren⟩, hclosing⟩ := h
    rw [write?, writeAll?_of_not_isThere hfront, hchildren,
      Fragment.isWritten_eq_false_iff.1 hclosing]
    simp only [bind, Except.bind, Bool.not_true, Bool.false_and, Bool.false_eq_true, if_false,
      if_true, writeChildren?_of_allSilent hchildren, put?_empty]
    rfl

/-- A child that is passed over might as well not be there. -/
theorem writeChildren?_without {f : Fragment} (h : f.isSilent = true)
    (before after : List Fragment) (s : Sink) (breakable : Bool) (separator : Option String)
    (first : Bool) :
    s.writeChildren? breakable separator first (before ++ f :: after) =
      s.writeChildren? breakable separator first (before ++ after) := by
  induction before generalizing s first with
  | nil => rw [List.nil_append, List.nil_append, writeChildren?, if_pos h]
  | cons g before ih =>
    rw [List.cons_append, List.cons_append, writeChildren?, writeChildren?]
    simp only [ih]

/-- A child that is passed over may be left out. -/
theorem write?_without_child {f : Fragment} (h : f.isSilent = true)
    (front before after : List Fragment) (style : Style) (s : Sink) (breakable : Bool) :
    s.write? breakable (.tree front (before ++ f :: after) style) =
      s.write? breakable (.tree front (before ++ after) style) := by
  have hsilent : allSilent (before ++ f :: after) = allSilent (before ++ after) := by
    rw [Fragment.allSilent_append, Fragment.allSilent_append, Fragment.allSilent, h, Bool.true_and]
  rw [write?, write?, hsilent]
  simp only [writeChildren?_without h]

end Sink

/-! ### What leaves a trace -/

namespace Fragment

mutual

/-- Whether what stands in front of children, at every depth, is not empty where it is there. -/
def isVoiced : Fragment → Bool
  | nothing => true
  | text _ => true
  | alien => true
  | tree front children _ => frontVoiced front && allVoiced children

/-- Whether the fragments in front of children are not empty where they are there, and voiced. -/
def frontVoiced : List Fragment → Bool
  | [] => true
  | f :: fs => (!isThere f || !isSilent f) && isVoiced f && frontVoiced fs

/-- Whether all fragments are voiced. -/
def allVoiced : List Fragment → Bool
  | [] => true
  | f :: fs => isVoiced f && allVoiced fs

end

end Fragment

namespace Sink

open Fragment (isVoiced frontVoiced allVoiced)

variable {s s' : Sink} {t : String} {P : String → Prop}

/-- What has something in addition to a sink is no shorter. -/
theorem Adds.length_le (h : Adds s' s t P) : s.written.length ≤ s'.written.length := by
  obtain ⟨added, hwritten, -⟩ := h
  rw [← String.length_toList, ← String.length_toList, hwritten, List.length_append]
  exact Nat.le_add_right _ _

/-- Writing a fragment makes nothing shorter. -/
theorem length_le_write (s : Sink) (f : Fragment) :
    s.written.length ≤ (s.write f).written.length :=
  (adds_write s f).length_le

/-- Writing a text makes nothing shorter. -/
theorem length_le_put (s : Sink) (t : String) : s.written.length ≤ (s.put t).written.length :=
  (adds_put s t).length_le

/-- A text that is not empty is written. -/
theorem length_lt_put (s : Sink) {t : String} (ht : t ≠ "") :
    s.written.length < (s.put t).written.length := by
  obtain ⟨c, cs, hcs⟩ := List.exists_cons_of_ne_nil fun h => ht (String.toList_inj.1 h)
  have hput : s.put t = (s.putChar c).put (String.ofList cs) := by
    rw [put, put, hcs, String.toList_ofList, List.foldl_cons]
  have hchar : s.written.length < (s.putChar c).written.length := by
    unfold putChar
    split
    · simp only [String.length_append, String.length_push]
      omega
    · simp only [String.length_push]
      omega
  rw [hput]
  exact Nat.lt_of_lt_of_le hchar (length_le_put _ _)

/-- A tree makes the written text longer if what stands in front of the children does, or the
children do in every sink, or something closes it: no other part takes away from it. -/
theorem length_lt_write_tree (s : Sink) {front children : List Fragment} {style : Style}
    (h : s.written.length < (s.writeAll front).written.length ∨
      (∀ u : Sink, u.written.length <
        (u.writeChildren style.separator true children).written.length) ∨
      style.closing.getD "" ≠ "") :
    s.written.length < (s.write (.tree front children style)).written.length := by
  rw [write]
  generalize (if allSilent children then 0 else style.indent.columns) = delta
  generalize hv : ((s.writeAll front).push delta).writeChildren style.separator true children = v
  have hfront : s.written.length ≤ (s.writeAll front).written.length :=
    (adds_writeAll s front).length_le
  have hchildren : (s.writeAll front).written.length ≤ v.written.length := by
    rw [← hv]
    exact (adds_writeChildren ((s.writeAll front).push delta) style.separator true
      children).length_le
  have hpop : v.pop.written = v.written := by rw [← hv, pop_writeChildren]
  have hclosing := length_le_put v.pop (style.closing.getD "")
  rw [hpop] at hclosing
  rcases h with hlonger | hlonger | hlonger
  · omega
  · have hlt := hlonger ((s.writeAll front).push delta)
    rw [hv] at hlt
    have hpush : ((s.writeAll front).push delta).written = (s.writeAll front).written := rfl
    rw [hpush] at hlt
    omega
  · have hlt := length_lt_put v.pop hlonger
    rw [hpop] at hlt
    omega

/-- A first child that is not passed over and makes the written text longer. -/
theorem length_lt_writeChildren_cons (s : Sink) (separator : Option String) (first : Bool)
    {f : Fragment} (hf : f.isSilent = false)
    (hlonger : ∀ u : Sink, u.written.length < (u.write f).written.length) (fs : List Fragment) :
    s.written.length < (s.writeChildren separator first (f :: fs)).written.length := by
  rw [writeChildren, if_neg (by simp [hf])]
  dsimp only
  have hput : s.written.length ≤
      (if first then s else s.put (separator.getD "")).written.length := by
    split
    · exact Nat.le_refl _
    · exact length_le_put s _
  generalize (if first then s else s.put (separator.getD "")) = u at hput ⊢
  have hfresh : u.written.length ≤
      (if separator.isNone && f.isFresh then u.freshLine else u).written.length := by
    split
    · exact (adds_freshLine u).length_le
    · exact Nat.le_refl _
  generalize (if separator.isNone && f.isFresh then u.freshLine else u) = v at hfresh ⊢
  have hlt := hlonger v
  have hrest := (adds_writeChildren (v.write f) separator false fs).length_le
  omega

mutual

/-- A voiced fragment that is not passed over makes the written text longer. -/
theorem length_lt_write (s : Sink) : ∀ {f : Fragment}, f.isPlain = true → f.isVoiced = true →
    f.isSilent = false → s.written.length < (s.write f).written.length
  | .nothing, _, _, hsound => by cases hsound
  | .alien, hplain, _, _ => by cases hplain
  | .text t, _, _, hsound => by
    rw [write]
    apply length_lt_put
    simpa [Fragment.isSilent] using hsound
  | .tree front children style, hplain, hvoiced, hsound => by
    rw [Fragment.isPlain, Bool.and_eq_true, Bool.and_eq_true] at hplain
    obtain ⟨⟨hfront, hchildren⟩, -⟩ := hplain
    rw [Fragment.isVoiced, Bool.and_eq_true] at hvoiced
    apply length_lt_write_tree
    by_cases hthere : front.any isThere = true
    · exact Or.inl (length_lt_writeAll s hfront hvoiced.1 hthere)
    by_cases hsilent : allSilent children = true
    · refine Or.inr (Or.inr fun hempty => ?_)
      have hunwritten := Fragment.isWritten_eq_false_iff.2 hempty
      simp [Fragment.isSilent, hthere, hsilent, hunwritten] at hsound
    · exact Or.inr (Or.inl fun u => length_lt_writeChildren u style.separator true hchildren
        hvoiced.2 (Bool.eq_false_iff.2 hsilent))

/-- So do voiced fragments in front of children of which one is there. -/
theorem length_lt_writeAll (s : Sink) : ∀ {fs : List Fragment}, allPlain fs = true →
    frontVoiced fs = true → fs.any isThere = true →
    s.written.length < (s.writeAll fs).written.length
  | [], _, _, hthere => by cases hthere
  | f :: fs, hplain, hvoiced, hthere => by
    rw [Fragment.allPlain, Bool.and_eq_true] at hplain
    rw [Fragment.frontVoiced, Bool.and_eq_true, Bool.and_eq_true] at hvoiced
    obtain ⟨⟨hsound, hf⟩, hfs⟩ := hvoiced
    rw [writeAll]
    by_cases hfthere : f.isThere = true
    · have hlt := length_lt_write s hplain.1 hf (by simpa [hfthere] using hsound)
      exact Nat.lt_of_lt_of_le hlt (adds_writeAll _ fs).length_le
    · have hlater : fs.any isThere = true := by simpa [hfthere] using hthere
      exact Nat.lt_of_le_of_lt (length_le_write s f) (length_lt_writeAll _ hplain.2 hfs hlater)

/-- So do voiced children of which one is not passed over. -/
theorem length_lt_writeChildren (s : Sink) (separator : Option String) (first : Bool) :
    ∀ {fs : List Fragment}, allPlain fs = true → allVoiced fs = true → allSilent fs = false →
    s.written.length < (s.writeChildren separator first fs).written.length
  | [], _, _, hsound => by cases hsound
  | f :: fs, hplain, hvoiced, hsound => by
    rw [Fragment.allPlain, Bool.and_eq_true] at hplain
    rw [Fragment.allVoiced, Bool.and_eq_true] at hvoiced
    by_cases hsilent : f.isSilent = true
    · rw [writeChildren, if_pos hsilent]
      rw [Fragment.allSilent, hsilent, Bool.true_and] at hsound
      exact length_lt_writeChildren s separator first hplain.2 hvoiced.2 hsound
    · have hf : f.isSilent = false := Bool.eq_false_iff.2 hsilent
      exact length_lt_writeChildren_cons s separator first hf
        (fun u => length_lt_write u hplain.1 hvoiced.1 hf) fs

end

end Sink

/-! ### Trees -/

/-- An empty fragment leaves every sink as it is. A fragment with no empty fragments in front of
children, at any depth, is empty if and only if it writes nothing. A child of either sort that
writes nothing can be left out, whatever stands around it and whatever separates the children: it
causes no separator, and the tree writes the same, into every sink, and is empty as before. -/
theorem Fragment.isEmpty_iff_writesNothing {f : Fragment} (hplain : f.isPlain = true) :
    (f.isEmpty = true → f.WritesNothing ∧
      ∀ (s : Sink) (breakable : Bool), s.write? breakable f = .ok s) ∧
    (f.isVoiced = true → (f.isEmpty = true ↔ f.WritesNothing)) ∧
    (f.isEmpty = true ∨ (f.isVoiced = true ∧ f.WritesNothing) →
      ∀ (front before after : List Fragment) (style : Style),
        (tree front (before ++ f :: after) style).isEmpty =
          (tree front (before ++ after) style).isEmpty ∧
        (tree front (before ++ f :: after) style).output =
          (tree front (before ++ after) style).output ∧
        ∀ (s : Sink) (breakable : Bool),
          s.write? breakable (tree front (before ++ f :: after) style) =
            s.write? breakable (tree front (before ++ after) style)) := by
  have hempty (h : f.isEmpty = true) : f.WritesNothing :=
    ⟨_, Sink.write?_of_isSilent h {} true, rfl⟩
  have hvoiced (hv : f.isVoiced = true) (h : f.WritesNothing) : f.isEmpty = true := by
    by_contra hsound
    have hlt := Sink.length_lt_write {} hplain hv (Bool.eq_false_iff.2 hsound)
    rw [(writesNothing_iff hplain).1 h] at hlt
    exact absurd hlt (Nat.lt_irrefl _)
  refine ⟨fun h => ⟨hempty h, Sink.write?_of_isSilent h⟩,
    fun hv => ⟨hempty, hvoiced hv⟩, fun h front before after style => ?_⟩
  have hsilent : f.isSilent = true := h.elim id fun h => hvoiced h.1 h.2
  refine ⟨?_, ?_, Sink.write?_without_child hsilent front before after style⟩
  · rw [isEmpty, isEmpty, isSilent, isSilent, allSilent_append, allSilent_append, allSilent,
      hsilent, Bool.true_and]
  · rw [output, output, Sink.write?_without_child hsilent front before after style]

/-- A tree of parts that are not there or empty, to any depth. -/
def hushed : Fragment :=
  .tree [.nothing] [.text "", .nothing, .tree [] [.empty, .row []] { closing := some "" }]
    { indent := .blanks 4, separator := some "; ", fresh := true }

/-- The hushed tree is empty and writes nothing, and between two children it leaves no separator. -/
theorem Fragment.isEmpty_iff_writesNothing_hushed :
    hushed.isPlain = true ∧ hushed.isVoiced = true ∧ hushed.isEmpty = true ∧
    hushed.WritesNothing ∧
    (separated ", " [.text "a", hushed, .text "b"]).output = .ok "a, b" := by
  have hplain : hushed.isPlain = true := by decide
  have hvoiced : hushed.isVoiced = true := by decide
  have hempty : hushed.isEmpty = true := by decide
  obtain ⟨-, hiff, hchild⟩ := Fragment.isEmpty_iff_writesNothing hplain
  have hnothing : hushed.WritesNothing := (hiff hvoiced).1 hempty
  obtain ⟨-, houtput, -⟩ := hchild (Or.inr ⟨hvoiced, hnothing⟩) [] [.text "a"] [.text "b"]
    { separator := some ", " }
  refine ⟨hplain, hvoiced, hempty, hnothing, ?_⟩
  exact houtput.trans (by decide +kernel)

/-- An empty text in front of children, as an empty name gives it. -/
def blankLabel : Fragment := .row [.text ""]

/-- A tree with an empty text in front of its children writes nothing and is not empty. Among
children it causes a separator. -/
theorem Fragment.isEmpty_blankLabel :
    blankLabel.isPlain = true ∧ blankLabel.WritesNothing ∧ blankLabel.isEmpty = false ∧
    (separated ", " [.text "a", blankLabel, .text "b"]).output = .ok "a, , b" ∧
    (separated ", " [.text "a", .text "b"]).output = .ok "a, b" := by
  refine ⟨by decide, ⟨{}, by decide +kernel, rfl⟩, by decide, ?_, ?_⟩
  · decide +kernel
  · decide +kernel

end Layout

end CodeSample

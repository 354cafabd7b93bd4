import CodeSample.Proofs.Indentation
import CodeSample.Proofs.StringLiterals
import CodeSample.Render.Output

/-!
# Layout and the text that is laid out

Laying a fragment out adds and drops white space only, and a piece of text on one line that does not
end in a blank or a tab is never taken apart.

* `Text.inked` are the characters of a text that are no blanks, tabs or line breaks;
* `Fragment.Stands` says that a text stands in a fragment, and `Text.IsPiece` that it is such a
  piece;
* `Sink.Adds` says what has been added to a sink: the inked characters of a text, and some pieces
  whole. It composes (`Adds.trans`), and `adds_write` is what a fragment adds;
* `isInfix_stripLineEnds`: dropping blanks at line ends leaves pieces whole;
* `Fragment.output_of_layout` is the statement for finished output.
-/

namespace CodeSample

/-! ### Inked characters and pieces -/

namespace Text

/-- Whether a character is no blank, tab or line break. -/
def isInk (c : Char) : Bool := c != ' ' && c != '\t' && c != '\n'

/-- The characters that are no blanks, tabs or line breaks. -/
def inked (cs : List Char) : List Char := cs.filter isInk

/-- The inked characters of two texts are those of the one and those of the other. -/
theorem inked_append (cs ds : List Char) : inked (cs ++ ds) = inked cs ++ inked ds :=
  List.filter_append cs ds

/-- There are no inked characters among blanks. -/
theorem inked_replicate (n : Nat) : inked (List.replicate n ' ') = [] := by
  rw [inked, List.filter_replicate]
  rfl

/-- A text on one line that is not empty and ends in neither a blank nor a tab. -/
structure IsPiece (s : String) : Prop where
  unbroken : '\n' ∉ s.toList
  nonempty : s ≠ ""
  ending : ∀ c ∈ s.toList.getLast?, c ≠ ' ' ∧ c ≠ '\t'

/-- Quoted texts are pieces. -/
theorem isPiece_quote (s : String) : IsPiece (quote s) := by
  have hquote : (quote s).toList = '"' :: escapeChars s.toList ++ ['"'] := by simp [quote, escape]
  refine ⟨?_, fun h => ?_, fun c hc => ?_⟩
  · rw [hquote]
    simp [not_mem_escapeChars (show '\n' ∈ controls by simp [controls])]
  · rw [h] at hquote
    cases hquote
  · rw [hquote, List.getLast?_concat] at hc
    obtain rfl := Option.some.inj hc
    decide

/-! ### Dropping blanks at line ends -/

open Layout.Sink (stripLineEnds)

/-- Dropping blanks at line ends drops no inked character. -/
theorem inked_stripLineEnds (cs : List Char) : inked (stripLineEnds cs) = inked cs := by
  induction cs with
  | nil => rfl
  | cons c cs ih =>
    rw [stripLineEnds_cons]
    split
    · rename_i h
      have hc : isInk c = false := by rcases h.1 with rfl | rfl <;> rfl
      rw [ih, inked, inked, List.filter_cons_of_neg (by simp [hc])]
    · rw [inked, inked, List.filter_cons, List.filter_cons]
      split
      · exact congrArg _ ih
      · exact ih

/-- What is left of the end of a text does not depend on what stands in front. -/
theorem isSuffix_stripLineEnds (cs ds : List Char) :
    stripLineEnds ds <:+ stripLineEnds (cs ++ ds) := by
  induction cs with
  | nil => exact List.suffix_refl _
  | cons c cs ih =>
    rw [List.cons_append, stripLineEnds_cons]
    split
    · exact ih
    · exact ih.trans (List.suffix_cons c _)

/-- A piece stays whole in front of whatever follows it. -/
theorem stripLineEnds_piece {cs : List Char} (hunbroken : '\n' ∉ cs) (hne : cs ≠ [])
    (hending : ∀ c ∈ cs.getLast?, c ≠ ' ' ∧ c ≠ '\t') (ds : List Char) :
    stripLineEnds (cs ++ ds) = cs ++ stripLineEnds ds := by
  induction cs with
  | nil => exact absurd rfl hne
  | cons c cs ih =>
    rw [List.mem_cons, not_or] at hunbroken
    cases cs with
    | nil =>
      obtain ⟨hblank, htab⟩ := hending c rfl
      rw [List.cons_append, stripLineEnds_cons, if_neg (by simp [hblank, htab])]
      rfl
    | cons d cs =>
      have hrest := ih hunbroken.2 (by simp) fun e he => hending e he
      have hd : d ≠ '\n' := fun h => hunbroken.2 (h ▸ List.mem_cons_self)
      rw [List.cons_append, stripLineEnds_cons, hrest, if_neg (by simp [hd])]
      rfl

/-- A piece of what is written is a piece of what is left. -/
theorem isInfix_stripLineEnds {s : String} (hs : IsPiece s) {cs : List Char}
    (h : s.toList <:+: cs) : s.toList <:+: stripLineEnds cs := by
  obtain ⟨before, after, rfl⟩ := h
  have hne : s.toList ≠ [] := fun h => hs.nonempty (String.toList_inj.1 h)
  rw [List.append_assoc]
  refine List.IsInfix.trans ?_ (isSuffix_stripLineEnds before (s.toList ++ after)).isInfix
  rw [stripLineEnds_piece hs.unbroken hne hs.ending]
  exact (List.prefix_append _ _).isInfix

end Text

namespace Layout

open Text (inked isInk IsPiece)

/-- A text stands in a fragment: as the fragment, or at any depth in front of children, as one of
them or behind them. -/
inductive Fragment.Stands : Fragment → String → Prop where
  | text (s : String) : Stands (.text s) s
  | front {front children : List Fragment} {style : Style} {f : Fragment} {s : String} :
    f ∈ front → Stands f s → Stands (.tree front children style) s
  | child {front children : List Fragment} {style : Style} {f : Fragment} {s : String} :
    f ∈ children → Stands f s → Stands (.tree front children style) s
  | closing {front children : List Fragment} {style : Style} {s : String} :
    style.closing = some s → Stands (.tree front children style) s

/-- Only empty texts stand in a fragment that is passed over. -/
theorem Fragment.Stands.eq_empty {f : Fragment} {s : String} (h : f.Stands s)
    (hf : f.isSilent = true) : s = "" := by
  have silent_of_mem {f : Fragment} {fs : List Fragment} (hfs : allSilent fs = true)
      (hmem : f ∈ fs) : f.isSilent = true := by
    induction fs with
    | nil => cases hmem
    | cons g gs ih =>
      rw [allSilent, Bool.and_eq_true] at hfs
      rcases List.mem_cons.1 hmem with rfl | hmem
      · exact hfs.1
      · exact ih hfs.2 hmem
  induction h with
  | text s => simpa [isSilent] using hf
  | front hmem hstands _ =>
    rw [isSilent, Bool.and_eq_true, Bool.and_eq_true, Bool.not_eq_true', List.any_eq_false] at hf
    have hnothing := hf.1.1 _ hmem
    cases hstands <;> simp [isThere] at hnothing
  | child hmem _ ih =>
    rw [isSilent, Bool.and_eq_true, Bool.and_eq_true] at hf
    exact ih (silent_of_mem hf.1.2 hmem)
  | closing hclosing =>
    rw [isSilent, Bool.and_eq_true, hclosing] at hf
    simpa [isWritten] using hf.2

namespace Sink

/-- What a sink has in addition to another one: characters of which those with ink are those of a
text, and among which some pieces stand whole. -/
def Adds (s' s : Sink) (t : String) (P : String → Prop) : Prop :=
  ∃ added : List Char, s'.written.toList = s.written.toList ++ added ∧
    inked added = inked t.toList ∧ ∀ p, P p → IsPiece p → p.toList <:+: added

variable {s s' s'' : Sink} {t u : String} {P Q R : String → Prop}

/-- A sink with the same text has nothing in addition. -/
theorem Adds.nothing (h : s'.written = s.written) (hP : ∀ p, P p → ¬IsPiece p) :
    Adds s' s "" P :=
  ⟨[], by rw [h, List.append_nil], rfl, fun p hp hpiece => absurd hpiece (hP p hp)⟩

/-- Fewer pieces stand whole among what is added if more do. -/
theorem Adds.mono (h : Adds s' s t P) (hQ : ∀ p, Q p → IsPiece p → P p) : Adds s' s t Q := by
  obtain ⟨added, hwritten, hinked, hpieces⟩ := h
  exact ⟨added, hwritten, hinked, fun p hp hpiece => hpieces p (hQ p hp hpiece) hpiece⟩

/-- What is added in two steps is added together, with the pieces of both. -/
theorem Adds.trans (h : Adds s' s t P) (h' : Adds s'' s' u Q)
    (hR : ∀ p, R p → IsPiece p → P p ∨ Q p) : Adds s'' s (t ++ u) R := by
  obtain ⟨added, hwritten, hinked, hpieces⟩ := h
  obtain ⟨later, hwritten', hinked', hpieces'⟩ := h'
  refine ⟨added ++ later, ?_, ?_, fun p hp hpiece => ?_⟩
  · rw [hwritten', hwritten, List.append_assoc]
  · rw [Text.inked_append, hinked, hinked', String.toList_append, Text.inked_append]
  · rcases hR p hp hpiece with hp | hp
    · exact (hpieces p hp hpiece).trans (List.prefix_append _ _).isInfix
    · exact (hpieces' p hp hpiece).trans (List.suffix_append _ _).isInfix

/-- What is added is a matter of what has been written. -/
theorem Adds.congr (h : Adds s' s t P) (hwritten : s''.written = s'.written) : Adds s'' s t P := by
  obtain ⟨added, hadded, hrest⟩ := h
  exact ⟨added, by rw [hwritten, hadded], hrest⟩

/-- A character is written, and blanks after a line break. -/
theorem adds_putChar (s : Sink) (c : Char) :
    Adds (s.putChar c) s (String.singleton c) fun _ => False := by
  unfold putChar
  split
  · rename_i hc
    subst hc
    refine ⟨'\n' :: (margin s.level).toList, ?_, ?_, fun _ hp => hp.elim⟩
    · simp
    · rw [margin, String.toList_ofList]
      exact Text.inked_replicate _
  · exact ⟨[c], by simp, by simp, fun _ hp => hp.elim⟩

/-- A text adds its inked characters, and stands whole if it is a piece. -/
theorem adds_put (s : Sink) (t : String) : Adds (s.put t) s t (· = t) := by
  have hinked : Adds (s.put t) s t fun _ => False := by
    have chars (cs : List Char) (s : Sink) :
        Adds (cs.foldl putChar s) s (String.ofList cs) fun _ => False := by
      induction cs generalizing s with
      | nil => exact .nothing rfl fun _ hp => hp.elim
      | cons c cs ih =>
        have hcons : String.ofList (c :: cs) = String.singleton c ++ String.ofList cs := by
          rw [← String.toList_inj]
          simp
        rw [hcons]
        exact (adds_putChar s c).trans (ih (s.putChar c)) fun _ hp _ => Or.inl hp
    have := chars t.toList s
    rwa [String.ofList_toList] at this
  by_cases hnewline : '\n' ∈ t.toList
  · obtain ⟨added, hwritten, hink, -⟩ := hinked
    refine ⟨added, hwritten, hink, ?_⟩
    rintro p rfl hpiece
    exact absurd hnewline hpiece.unbroken
  · rw [put_of_not_mem hnewline]
    refine ⟨t.toList, String.toList_append .., rfl, ?_⟩
    rintro p rfl -
    exact List.infix_refl _

/-- Coming to the start of a line adds no inked character. -/
theorem adds_freshLine (s : Sink) : Adds s.freshLine s "" fun _ => False := by
  unfold freshLine
  split
  · exact .nothing rfl fun _ hp => hp.elim
  · obtain ⟨added, hwritten, hinked, -⟩ := adds_put s "\n"
    exact ⟨added, hwritten, hinked, fun _ hp => hp.elim⟩

mutual

/-- A fragment adds its text, and the pieces that stand in it. -/
theorem adds_write (s : Sink) : ∀ f : Fragment, Adds (s.write f) s f.flat f.Stands
  | .nothing => .nothing rfl fun _ hp => by cases hp
  | .alien => .nothing rfl fun _ hp => by cases hp
  | .text t => (adds_put s t).mono fun p hp _ => by
    cases hp
    rfl
  | .tree front children style => by
    rw [write, Fragment.flat]
    generalize (if Fragment.allSilent children then 0 else style.indent.columns) = delta
    have hfront := adds_writeAll s front
    generalize s.writeAll front = u at hfront ⊢
    have hchildren := adds_writeChildren (u.push delta) style.separator true children
    have hpopped : Adds ((u.push delta).writeChildren style.separator true children).pop u
        (Fragment.flatChildren style.separator true children) fun p => ∃ f ∈ children, f.Stands p :=
      Adds.congr hchildren (by rw [pop_writeChildren])
    refine ((hfront.trans hpopped fun _ hp _ => hp).trans (adds_put _ _)) fun p hp _ => ?_
    cases hp with
    | front hmem hstands => exact Or.inl (Or.inl ⟨_, hmem, hstands⟩)
    | child hmem hstands => exact Or.inl (Or.inr ⟨_, hmem, hstands⟩)
    | closing hclosing =>
      rw [hclosing]
      exact Or.inr rfl

/-- Fragments one after the other. -/
theorem adds_writeAll (s : Sink) : ∀ fs : List Fragment,
    Adds (s.writeAll fs) s (Fragment.flats fs) fun p => ∃ f ∈ fs, f.Stands p
  | [] => .nothing rfl fun _ hp => by simp at hp
  | f :: fs => by
    rw [writeAll, Fragment.flats]
    refine (adds_write s f).trans (adds_writeAll _ fs) ?_
    rintro p ⟨g, hg, hp⟩ -
    rcases List.mem_cons.1 hg with rfl | hg
    · exact Or.inl hp
    · exact Or.inr ⟨g, hg, hp⟩

/-- Children with a separator between those that are not passed over. -/
theorem adds_writeChildren (s : Sink) (separator : Option String) (first : Bool) :
    ∀ fs : List Fragment, Adds (s.writeChildren separator first fs) s
      (Fragment.flatChildren separator first fs) fun p => ∃ f ∈ fs, f.Stands p
  | [] => .nothing rfl fun _ hp => by simp at hp
  | f :: fs => by
    rw [writeChildren, Fragment.flatChildren]
    by_cases hsilent : f.isSilent = true
    · rw [if_pos hsilent, if_pos hsilent]
      refine (adds_writeChildren s separator first fs).mono ?_
      rintro p ⟨g, hg, hp⟩ hpiece
      rcases List.mem_cons.1 hg with rfl | hg
      · exact absurd (hp.eq_empty hsilent) hpiece.nonempty
      · exact ⟨g, hg, hp⟩
    rw [if_neg hsilent, if_neg hsilent]
    dsimp only
    have hput : Adds (if first then s else s.put (separator.getD "")) s
        (if first then "" else separator.getD "") fun _ => False := by
      split
      · exact .nothing rfl fun _ hp => hp.elim
      · exact (adds_put s _).mono fun _ hp _ => hp.elim
    generalize (if first then s else s.put (separator.getD "")) = u at hput ⊢
    have hfresh : Adds (if separator.isNone && f.isFresh then u.freshLine else u) s
        (if first then "" else separator.getD "") fun _ => False := by
      split
      · rw [← String.append_empty (s := if first then "" else separator.getD "")]
        exact hput.trans (adds_freshLine u) fun _ hp _ => Or.inl hp
      · exact hput
    generalize (if separator.isNone && f.isFresh then u.freshLine else u) = v at hfresh ⊢
    refine (hfresh.trans (adds_write v f) fun _ hp _ => Or.inr hp).trans
      (adds_writeChildren (v.write f) separator false fs) ?_
    rintro p ⟨g, hg, hp⟩ -
    rcases List.mem_cons.1 hg with rfl | hg
    · exact Or.inl hp
    · exact Or.inr ⟨g, hg, hp⟩

end

end Sink

/-! ### Finished output -/

/-- A fragment that holds only texts and is indented by whole numbers can be laid out. Layout
changes white space only: the text has the same inked characters as the fragment has without layout,
in the same order, and every piece that stands in the fragment, at any depth, stands whole in the
text; so does every quoted text. -/
theorem Fragment.output_of_layout {f : Fragment} (h : f.isPlain = true) :
    ∃ text, f.output = .ok text ∧ inked text.toList = inked f.flat.toList ∧
      (∀ s, f.Stands s → IsPiece s → s.toList <:+: text.toList) ∧
      ∀ s, f.Stands (Text.quote s) → (Text.quote s).toList <:+: text.toList := by
  obtain ⟨added, hwritten, hinked, hpieces⟩ := Sink.adds_write {} f
  have htext : f.render.toList = Sink.stripLineEnds added := by
    rw [render, Sink.text, String.toList_ofList, hwritten]
    rfl
  have hpiece (s : String) (hs : f.Stands s) (hpiece : IsPiece s) :
      s.toList <:+: f.render.toList := by
    rw [htext]
    exact Text.isInfix_stripLineEnds hpiece (hpieces s hs hpiece)
  refine ⟨f.render, output_of_isPlain h, ?_, hpiece, fun s hs => ?_⟩
  · rw [htext, Text.inked_stripLineEnds, hinked]
  · exact hpiece _ hs (Text.isPiece_quote s)

/-- A loop with an assignment of a quoted text that ends in blanks. -/
def greeting : Fragment :=
  .tree [.text "while (true) \x7b "]
    [.line [.text "greeting = ", .text (Text.quote "so  long  "), .text ";"], .text " \n\t",
      .separated " \n" [.text "a\t", .nothing, .text "b"]]
    { indent := .blanks (-3), closing := some "\n\x7d" }

/-- The greeting keeps its inked characters, and the quoted text stands in it with all of its
blanks. -/
theorem Fragment.output_of_layout_greeting :
    greeting.isPlain = true ∧ greeting.Stands (Text.quote "so  long  ") ∧
    ∃ text, greeting.output = .ok text ∧ inked text.toList = inked greeting.flat.toList ∧
      (Text.quote "so  long  ").toList <:+: text.toList := by
  have hstands : greeting.Stands (Text.quote "so  long  ") :=
    .child (List.mem_cons_self) (.front (List.mem_cons_of_mem _ List.mem_cons_self) (.text _))
  obtain ⟨text, houtput, hinked, -, hquoted⟩ := Fragment.output_of_layout (f := greeting) rfl
  exact ⟨rfl, hstands, text, houtput, hinked, hquoted _ hstands⟩

end Layout

end CodeSample

import CodeSample.Proofs.StatementLists

/-!
# Output without lines of its own

What is written for an expression does not ask for a line of its own anywhere, so it depends on the
level at which it is written and on nothing else. Pieces of such output are put together as texts
are, and if each piece starts and ends with ink, so are the finished texts: no blank at the end of
one piece is dropped when it stands alone and kept when it stands in front of another.

* `Fragment.flows` says that no child asks for a line of its own, `Fragment.IsFramed` also that what
  is written starts and ends with ink, and `Fragment.Closes` that it does not end in a blank;
* `raw_tree`: what a tree writes, from what is in front, among the children and behind them;
* `stripLineEnds_append`: texts of which none ends in a blank are stripped each for itself;
* `render_row` and `render_commas` are the finished texts of pieces in a row and with commas.
-/

namespace CodeSample

/-! ### Texts that start and end with ink -/

namespace Text

open Layout.Sink (stripLineEnds)

/-- A text starts with ink. -/
def Begins (cs : List Char) : Prop := ∃ c, cs.head? = some c ∧ isInk c = true

/-- A text ends with ink. -/
def Ends (cs : List Char) : Prop := ∃ c, cs.getLast? = some c ∧ isInk c = true

/-- A text ends with ink, unless it is empty. -/
def Closes (cs : List Char) : Prop := ∀ c, cs.getLast? = some c → isInk c = true

/-- A text starts and ends with ink. -/
structure IsFramed (cs : List Char) : Prop where
  begins : Begins cs
  ends : Ends cs

instance (cs : List Char) : Decidable (Begins cs) :=
  decidable_of_iff (cs.head?.any isInk = true) (Option.any_eq_true _ _)

instance (cs : List Char) : Decidable (Ends cs) :=
  decidable_of_iff (cs.getLast?.any isInk = true) (Option.any_eq_true _ _)

instance (cs : List Char) : Decidable (Closes cs) :=
  decidable_of_iff (cs.getLast?.all isInk = true) (Option.all_eq_true _ _)

instance (cs : List Char) : Decidable (IsFramed cs) :=
  decidable_of_iff (Begins cs ∧ Ends cs) ⟨fun h => ⟨h.1, h.2⟩, fun h => ⟨h.begins, h.ends⟩⟩

/-- A text that ends with ink does so unless it is empty. -/
theorem closes_of_ends {cs : List Char} (h : Ends cs) : Closes cs := by
  obtain ⟨c, hc, hink⟩ := h
  intro d hd
  obtain rfl : c = d := Option.some.inj (hc.symm.trans hd)
  exact hink

/-- A text that starts with ink does so with another one behind it. -/
theorem begins_append {cs : List Char} (h : Begins cs) (ds : List Char) : Begins (cs ++ ds) := by
  obtain ⟨c, hc, hink⟩ := h
  exact ⟨c, List.mem_head?_append_of_mem_head? hc, hink⟩

/-- A text that ends with ink does so with another one in front of it. -/
theorem ends_append {ds : List Char} (h : Ends ds) (cs : List Char) : Ends (cs ++ ds) := by
  obtain ⟨c, hc, hink⟩ := h
  exact ⟨c, List.mem_getLast?_append_of_mem_getLast? hc, hink⟩

/-- A text that does not end in a blank is stripped for itself, whatever follows it. -/
theorem stripLineEnds_append {cs : List Char} (h : Closes cs) (ds : List Char) :
    stripLineEnds (cs ++ ds) = stripLineEnds cs ++ stripLineEnds ds := by
  induction cs with
  | nil => rfl
  | cons c cs ih =>
    cases cs with
    | nil =>
      have hc : ¬(c = ' ' ∨ c = '\t') := by
        have hink := h c rfl
        rintro (rfl | rfl) <;> exact absurd hink (by decide)
      rw [List.cons_append, stripLineEnds_cons, stripLineEnds_cons, if_neg fun hd => hc hd.1,
        if_neg fun hd => hc hd.1]
      rfl
    | cons d cs =>
      have hrest : stripLineEnds (d :: cs ++ ds) = stripLineEnds (d :: cs) ++ stripLineEnds ds :=
        ih fun e he => h e he
      -- the ink at the end of the text is left, so what follows has no part in what is dropped
      obtain ⟨e, kept, hkept⟩ : ∃ e kept, stripLineEnds (d :: cs) = e :: kept := by
        obtain ⟨e, he⟩ : ∃ e, (d :: cs).getLast? = some e :=
          ⟨_, List.getLast?_eq_some_getLast (by simp)⟩
        have hink : e ∈ inked (stripLineEnds (d :: cs)) := by
          rw [inked_stripLineEnds]
          exact List.mem_filter.2 ⟨List.mem_of_getLast? he, h e he⟩
        cases hs : stripLineEnds (d :: cs) with
        | nil =>
          rw [hs] at hink
          cases hink
        | cons e kept => exact ⟨e, kept, rfl⟩
      rw [List.cons_append, stripLineEnds_cons, stripLineEnds_cons, hrest, hkept]
      simp only [List.cons_append, reduceCtorEq, List.head?_cons]
      split <;> rfl

/-- A text on one line that ends with ink stays whole, whatever follows it. -/
theorem stripLineEnds_line_append {cs : List Char} (hline : '\n' ∉ cs) (h : Closes cs)
    (ds : List Char) : stripLineEnds (cs ++ ds) = cs ++ stripLineEnds ds := by
  by_cases hne : cs = []
  · subst hne
    rfl
  refine stripLineEnds_piece hline hne (fun c hc => ?_) ds
  have hink := h c hc
  constructor <;>
  · rintro rfl
    exact absurd hink (by decide)

/-- A line that ends with ink has no blanks at its end to drop. -/
theorem stripLineEnds_line {cs : List Char} (hline : '\n' ∉ cs) (h : Closes cs) :
    stripLineEnds cs = cs := by
  have hstrip := stripLineEnds_line_append hline h []
  rw [List.append_nil] at hstrip
  exact hstrip.trans (List.append_nil cs)

/-- A blank in front of ink is left. -/
theorem stripLineEnds_space {cs : List Char} (h : Begins cs) :
    stripLineEnds (' ' :: cs) = ' ' :: stripLineEnds cs := by
  obtain ⟨c, hc, hink⟩ := h
  obtain ⟨rest, rfl⟩ : ∃ rest, cs = c :: rest := List.head?_eq_some_iff.1 hc
  unfold isInk at hink
  simp only [Bool.and_eq_true, bne_iff_ne] at hink
  obtain ⟨⟨hblank, htab⟩, hbreak⟩ := hink
  have hleft : stripLineEnds (c :: rest) = c :: stripLineEnds rest := by
    rw [stripLineEnds_cons, if_neg (by simp [hblank, htab])]
  rw [stripLineEnds_cons, hleft, if_neg (by simp [hbreak])]

/-- Pieces with commas between them end as the last of them does. -/
theorem ends_commas {cs : List Char} (hcs : Ends cs) {ls : List (List Char)}
    (hls : ∀ l ∈ ls, IsFramed l) : Ends (cs ++ ls.flatMap ([',', ' '] ++ ·)) := by
  induction ls generalizing cs with
  | nil => simpa using hcs
  | cons l ls ih =>
    rw [List.forall_mem_cons] at hls
    rw [List.flatMap_cons, ← List.append_assoc, ← List.append_assoc]
    exact ih (ends_append hls.1.ends _) hls.2

/-- Texts that start and end with ink are stripped one by one behind another text, with commas in
front of them. -/
theorem stripLineEnds_commas {cs : List Char} (hcs : Closes cs) {ls : List (List Char)}
    (hls : ∀ l ∈ ls, IsFramed l) : stripLineEnds (cs ++ ls.flatMap ([',', ' '] ++ ·)) =
      stripLineEnds cs ++ (ls.map stripLineEnds).flatMap ([',', ' '] ++ ·) := by
  induction ls generalizing cs with
  | nil => simp
  | cons l ls ih =>
    rw [List.forall_mem_cons] at hls
    have hcomma : Closes [','] := by
      intro c hc
      cases hc
      rfl
    have hspace := stripLineEnds_space (begins_append hls.1.begins (ls.flatMap ([',', ' '] ++ ·)))
    rw [ih (closes_of_ends hls.1.ends) hls.2] at hspace
    rw [List.flatMap_cons, stripLineEnds_append hcs, List.map_cons, List.flatMap_cons,
      List.append_assoc]
    exact congrArg _ ((stripLineEnds_append hcomma _).trans (congrArg (',' :: ·) hspace))

end Text

namespace Layout

open Text (padBreaks isInk stripLineEnds_append)

namespace Fragment

mutual

/-- Whether a fragment can be written without breaking a line for any of its children: what stands
between children keeps them from being a block. -/
def flows : Fragment → Bool
  | nothing => true
  | text _ => true
  | alien => false
  | tree front children style =>
    allFlow front && allFlow children && (children.isEmpty || style.separator.isSome) &&
      style.indent.isWhole

/-- Whether all fragments can be written without breaking a line for any of their children. -/
def allFlow : List Fragment → Bool
  | [] => true
  | f :: fs => flows f && allFlow fs

end

/-- Fragments flow if each of them does. -/
theorem allFlow_iff {fs : List Fragment} : allFlow fs = true ↔ ∀ f ∈ fs, f.flows = true := by
  induction fs with
  | nil => simp [allFlow]
  | cons f fs ih => simp [allFlow, ih]

/-- A tree flows if its front and its children do, there is something between the children, and its
indentation is a whole number of blanks. -/
theorem flows_tree {front children : List Fragment} {style : Style} :
    (tree front children style).flows = true ↔ (∀ f ∈ front, f.flows = true) ∧
      (∀ f ∈ children, f.flows = true) ∧ (children = [] ∨ style.separator.isSome = true) ∧
      style.indent.isWhole = true := by
  simp only [flows, Bool.and_eq_true, Bool.or_eq_true, allFlow_iff, List.isEmpty_iff, and_assoc]

/-- A text flows. -/
@[simp] theorem flows_text (s : String) : (text s).flows = true := by
  rw [flows]

/-- A row flows if its fragments do. -/
theorem flows_row {front : List Fragment} (h : ∀ f ∈ front, f.flows = true) (fresh : Bool) :
    (tree front [] { fresh }).flows = true :=
  flows_tree.2 ⟨h, by simp, Or.inl rfl, rfl⟩

/-- Fragments that flow do so with a separator between them. -/
theorem flows_separated (separator : String) {children : List Fragment}
    (h : ∀ f ∈ children, f.flows = true) : (separated separator children).flows = true :=
  flows_tree.2 ⟨by simp, h, Or.inr rfl, rfl⟩

mutual

/-- What flows holds only texts. -/
theorem isPlain_of_flows : ∀ {f : Fragment}, f.flows = true → f.isPlain = true
  | nothing, _ => by rw [isPlain]
  | text _, _ => isPlain_text _
  | alien, h => by simp [flows] at h
  | tree front children style, h => by
    simp only [flows, Bool.and_eq_true] at h
    simp only [isPlain, Bool.and_eq_true]
    exact ⟨⟨allPlain_of_allFlow h.1.1.1, allPlain_of_allFlow h.1.1.2⟩, h.2⟩

/-- Fragments that flow hold only texts. -/
theorem allPlain_of_allFlow : ∀ {fs : List Fragment}, allFlow fs = true → allPlain fs = true
  | [], _ => by rw [allPlain]
  | f :: fs, h => by
    rw [allFlow, Bool.and_eq_true] at h
    rw [allPlain, isPlain_of_flows h.1, allPlain_of_allFlow h.2, Bool.and_self]

end

end Fragment

/-! ### What is written at a level -/

namespace Sink

/-- A text is written with the blanks of the level after each line break. -/
theorem written_put (s : Sink) (t : String) :
    (s.put t).written.toList = s.written.toList ++ padBreaks s.level.toNat t.toList := by
  unfold put
  induction t.toList generalizing s with
  | nil => exact (List.append_nil _).symm
  | cons c cs ih =>
    rw [List.foldl_cons, ih, (frame_putChar s c).1]
    unfold putChar
    split
    · rename_i hc
      rw [hc, Text.padBreaks_newline]
      simp [toList_margin]
    · rename_i hc
      rw [Text.padBreaks_cons _ hc]
      simp

mutual

/-- What flows is written alike at each place of a level. -/
theorem exists_written (level : Int) : ∀ {f : Fragment}, f.flows = true → ∃ t : List Char,
    ∀ s : Sink, s.level = level → (s.write f).written.toList = s.written.toList ++ t
  | .nothing, _ => ⟨[], fun s _ => (List.append_nil _).symm⟩
  | .text t, _ => ⟨padBreaks level.toNat t.toList, fun s hs => by rw [write, written_put, hs]⟩
  | .alien, h => by simp [Fragment.flows] at h
  | .tree front children style, h => by
    simp only [Fragment.flows, Bool.and_eq_true, Bool.or_eq_true] at h
    obtain ⟨⟨⟨hfront, hchildren⟩, hseparator⟩, -⟩ := h
    obtain ⟨t, ht⟩ := exists_written_all level hfront
    obtain ⟨u, hu⟩ := exists_written_children
      (level + if Fragment.allSilent children then 0 else style.indent.columns) hchildren
      hseparator true
    refine ⟨t ++ u ++ padBreaks level.toNat (style.closing.getD "").toList, fun s hs => ?_⟩
    have hlevel : (s.writeAll front).level = level := (frame_writeAll s front).1.trans hs
    rw [write, written_put, pop_writeChildren]
    dsimp only
    rw [hu _ (congrArg (· + _) hlevel), hlevel]
    show (s.writeAll front).written.toList ++ u ++ _ = _
    rw [ht s hs]
    simp

/-- What fragments that flow write depends on the level only, one after the other. -/
theorem exists_written_all (level : Int) : ∀ {fs : List Fragment}, Fragment.allFlow fs = true →
    ∃ t : List Char, ∀ s : Sink, s.level = level →
      (s.writeAll fs).written.toList = s.written.toList ++ t
  | [], _ => ⟨[], fun s _ => (List.append_nil _).symm⟩
  | f :: fs, h => by
    rw [Fragment.allFlow, Bool.and_eq_true] at h
    obtain ⟨t, ht⟩ := exists_written level h.1
    obtain ⟨u, hu⟩ := exists_written_all level h.2
    refine ⟨t ++ u, fun s hs => ?_⟩
    rw [writeAll, hu _ ((frame_write s f).1.trans hs), ht s hs, List.append_assoc]

/-- What children that flow write with separators depends on the level only. -/
theorem exists_written_children (level : Int) {separator : Option String} :
    ∀ {fs : List Fragment}, Fragment.allFlow fs = true →
    (fs.isEmpty = true ∨ separator.isSome = true) → ∀ first : Bool, ∃ t : List Char,
      ∀ s : Sink, s.level = level →
        (s.writeChildren separator first fs).written.toList = s.written.toList ++ t
  | [], _, _, _ => ⟨[], fun s _ => (List.append_nil _).symm⟩
  | f :: fs, h, hseparator, first => by
    rw [Fragment.allFlow, Bool.and_eq_true] at h
    have hsome : separator.isSome = true := hseparator.resolve_left (by simp)
    by_cases hsilent : f.isSilent = true
    · obtain ⟨t, ht⟩ := exists_written_children level h.2 (Or.inr hsome) first
      refine ⟨t, fun s hs => ?_⟩
      rw [writeChildren, if_pos hsilent, ht s hs]
    obtain ⟨t, ht⟩ := exists_written level h.1
    obtain ⟨u, hu⟩ := exists_written_children level h.2 (Or.inr hsome) false
    refine ⟨(if first then [] else padBreaks level.toNat (separator.getD "").toList) ++ t ++ u,
      fun s hs => ?_⟩
    have hnone : separator.isNone = false := by
      cases separator with
      | none => cases hsome
      | some _ => rfl
    have hput : (if first then s else s.put (separator.getD "")).level = level ∧
        (if first then s else s.put (separator.getD "")).written.toList = s.written.toList ++
          (if first then [] else padBreaks level.toNat (separator.getD "").toList) := by
      split
      · exact ⟨hs, (List.append_nil _).symm⟩
      · exact ⟨(frame_put s _).1.trans hs, by rw [written_put, hs]⟩
    rw [writeChildren, if_neg hsilent, hnone]
    dsimp only
    generalize (if first then s else s.put (separator.getD "")) = v at hput ⊢
    simp only [Bool.false_and, Bool.false_eq_true, if_false]
    rw [hu _ ((frame_write v f).1.trans hput.1), ht v hput.1, hput.2]
    simp

end

end Sink

namespace Fragment

variable {f x y : Fragment} {fs : List Fragment}

/-! ### What is written from the start of a text -/

/-- At level zero, what flows writes its raw text. -/
theorem written_write_of_flows (h : f.flows = true) {s : Sink} (hs : s.level = 0) :
    (s.write f).written.toList = s.written.toList ++ f.raw := by
  obtain ⟨t, ht⟩ := Sink.exists_written 0 h
  have hraw : f.raw = t := (ht {} rfl).trans (List.nil_append t)
  rw [ht s hs, hraw]

/-- At level zero, fragments that flow write their raw texts one after the other. -/
theorem written_writeAll_of_flows (h : ∀ f ∈ fs, f.flows = true) {s : Sink} (hs : s.level = 0) :
    (s.writeAll fs).written.toList = s.written.toList ++ fs.flatMap raw := by
  induction fs generalizing s with
  | nil => exact (List.append_nil _).symm
  | cons f fs ih =>
    rw [List.forall_mem_cons] at h
    rw [Sink.writeAll, ih h.2 ((Sink.frame_write s f).1.trans hs), written_write_of_flows h.1 hs,
      List.flatMap_cons, List.append_assoc]

/-- A text writes itself. -/
@[simp] theorem raw_text (s : String) : (text s).raw = s.toList := by
  unfold raw
  rw [Sink.write, Sink.written_put]
  exact (List.nil_append _).trans (Text.padBreaks_zero _)

/-- What a tree writes: what is in front, the children at a level of their own, and what follows
them. -/
theorem raw_tree {front children : List Fragment} {style : Style}
    (h : (tree front children style).flows = true) :
    (tree front children style).raw = front.flatMap raw ++
      (Sink.writeChildren { level := if allSilent children then 0 else style.indent.columns }
        style.separator true children).written.toList ++ (style.closing.getD "").toList := by
  obtain ⟨hfront, hchildren, hseparator, -⟩ := flows_tree.1 h
  have hlevel : (Sink.writeAll {} front).level = 0 := (Sink.frame_writeAll {} front).1
  obtain ⟨t, ht⟩ := Sink.exists_written_children
    (if allSilent children then 0 else style.indent.columns) (allFlow_iff.2 hchildren)
    (hseparator.imp_left List.isEmpty_iff.2) true
  have hpushed : ((Sink.writeAll {} front).push
      (if allSilent children then 0 else style.indent.columns)).level =
        if allSilent children then 0 else style.indent.columns := by
    show (Sink.writeAll {} front).level + _ = _
    rw [hlevel]
    exact Int.zero_add _
  have hwritten : (Sink.writeAll {} front).written.toList = front.flatMap raw :=
    (written_writeAll_of_flows hfront rfl).trans (List.nil_append _)
  unfold raw
  rw [Sink.write, Sink.written_put, Sink.pop_writeChildren]
  dsimp only
  rw [hlevel, ht _ hpushed, ht _ rfl]
  show (Sink.writeAll {} front).written.toList ++ t ++ padBreaks 0 _ = _ ++ ([] ++ t) ++ _
  rw [hwritten, Text.padBreaks_zero, List.nil_append]
  rfl

/-- Fragments one after the other, on a line of their own or not. -/
theorem raw_row (h : ∀ f ∈ fs, f.flows = true) (fresh : Bool) :
    (tree fs [] { fresh }).raw = fs.flatMap raw := by
  rw [raw_tree (flows_row h fresh), Sink.writeChildren]
  simp

/-- A word as a row of its own. -/
theorem flows_row_text (t : String) : (row [text t]).flows = true := flows_row (by simp) false

/-- A row of one text writes the text. -/
theorem raw_row_text (t : String) : (row [text t]).raw = t.toList := by
  rw [row, raw_row (by simp)]
  simp

/-! ### Fragments that start and end with ink -/

/-- A fragment flows, and does not end in a blank. -/
structure Closes (f : Fragment) : Prop where
  flows : f.flows = true
  closes : Text.Closes f.raw

/-- A fragment flows, and what it writes starts and ends with ink. -/
structure IsFramed (f : Fragment) : Prop extends Text.IsFramed f.raw where
  flows : f.flows = true

/-- What starts and ends with ink does not end in a blank. -/
theorem IsFramed.closes (h : f.IsFramed) : f.Closes := ⟨h.flows, Text.closes_of_ends h.ends⟩

/-- What starts with ink is not passed over. -/
theorem IsFramed.isSilent (h : f.IsFramed) : f.isSilent = false := by
  rw [Bool.eq_false_iff]
  intro hsilent
  obtain ⟨c, hc, -⟩ := h.begins
  unfold raw at hc
  rw [Sink.write_of_isSilent hsilent] at hc
  cases hc

/-- A text that starts and ends with ink does so as a fragment. -/
theorem isFramed_text {s : String} (h : Text.IsFramed s.toList) : (text s).IsFramed where
  begins := by rw [raw_text]; exact h.begins
  ends := by rw [raw_text]; exact h.ends
  flows := flows_text s

/-- A text that does not end in a blank does not do so as a fragment. -/
theorem closes_text {s : String} (h : Text.Closes s.toList) : (text s).Closes where
  flows := flows_text s
  closes := by rwa [raw_text]

/-- Fragments one after the other, of which the first starts and the last ends with ink. -/
theorem isFramed_row (hx : fs.head? = some x) (hy : fs.getLast? = some y)
    (h : ∀ f ∈ fs, f.flows = true) (hbegins : Text.Begins x.raw) (hends : Text.Ends y.raw) :
    (row fs).IsFramed := by
  have hraw : (row fs).raw = fs.flatMap raw := raw_row h false
  refine ⟨⟨?_, ?_⟩, flows_row h false⟩
  · obtain ⟨rest, rfl⟩ := List.head?_eq_some_iff.1 hx
    rw [hraw, List.flatMap_cons]
    exact Text.begins_append hbegins _
  · obtain ⟨rest, rfl⟩ := List.getLast?_eq_some_iff.1 hy
    rw [hraw, List.flatMap_append, List.flatMap_singleton]
    exact Text.ends_append hends _

/-- A tree that starts with ink in front of its children and ends with ink behind them. -/
theorem isFramed_tree {children : List Fragment} {style : Style} {closing : String}
    (hx : fs.head? = some x) (hclosing : style.closing = some closing)
    (h : (tree fs children style).flows = true) (hbegins : Text.Begins x.raw)
    (hends : Text.Ends closing.toList) : (tree fs children style).IsFramed := by
  have hraw := raw_tree h
  rw [hclosing, Option.getD_some] at hraw
  refine ⟨⟨?_, ?_⟩, h⟩
  · obtain ⟨rest, rfl⟩ := List.head?_eq_some_iff.1 hx
    rw [hraw, List.flatMap_cons, List.append_assoc, List.append_assoc]
    exact Text.begins_append hbegins _
  · rw [hraw]
    exact Text.ends_append hends _

/-! ### Finished texts -/

/-- Fragments of which none ends in a blank are finished one by one. -/
theorem render_row (h : ∀ f ∈ fs, f.Closes) : (row fs).render = String.join (fs.map render) := by
  have hraw : (row fs).raw = fs.flatMap raw := raw_row (fun f hf => (h f hf).flows) false
  rw [← String.toList_inj, toList_render, hraw, String.toList_join]
  clear hraw
  induction fs with
  | nil => rfl
  | cons f fs ih =>
    rw [List.forall_mem_cons] at h
    rw [List.flatMap_cons, stripLineEnds_append h.1.closes, ih h.2, List.map_cons,
      List.flatMap_cons, toList_render]

/-- What is written for fragments that start with ink, with commas in front of them. -/
theorem written_commas (h : ∀ f ∈ fs, f.IsFramed) {s : Sink} (hs : s.level = 0) :
    (s.writeChildren (some ", ") false fs).written.toList =
      s.written.toList ++ (fs.map raw).flatMap ([',', ' '] ++ ·) := by
  induction fs generalizing s with
  | nil => exact (List.append_nil _).symm
  | cons f fs ih =>
    rw [List.forall_mem_cons] at h
    have hput : (s.put ", ").level = 0 := (Sink.frame_put s _).1.trans hs
    have hwritten : (s.put ", ").written.toList = s.written.toList ++ [',', ' '] := by
      rw [Sink.written_put, hs]
      rfl
    rw [Sink.writeChildren, if_neg (by simp [h.1.isSilent])]
    show (((s.put ", ").write f).writeChildren (some ", ") false fs).written.toList = _
    rw [ih h.2 ((Sink.frame_write _ f).1.trans hput), written_write_of_flows h.1.flows hput,
      hwritten]
    simp

/-- Fragments that start and end with ink are finished one by one, with commas between them. What
is written for all of them does not end in a blank. -/
theorem render_commas (h : ∀ f ∈ fs, f.IsFramed) :
    (separated ", " fs).Closes ∧ (separated ", " fs).render = ", ".intercalate (fs.map render) := by
  have hflows : (separated ", " fs).flows = true := flows_separated _ fun f hf => (h f hf).flows
  rw [← String.toList_inj, toList_render, String.toList_intercalate, List.map_map]
  cases fs with
  | nil => exact ⟨⟨hflows, fun c hc => by cases hc⟩, rfl⟩
  | cons f fs =>
    rw [List.forall_mem_cons] at h
    have hraw : (separated ", " (f :: fs)).raw =
        f.raw ++ (fs.map raw).flatMap ([',', ' '] ++ ·) := by
      have hlevel : (if allSilent (f :: fs) then 0 else ({} : Style).indent.columns) = 0 :=
        ite_self 0
      have hchildren : (Sink.writeChildren {} (some ", ") true (f :: fs)).written.toList =
          f.raw ++ (fs.map raw).flatMap ([',', ' '] ++ ·) := by
        rw [Sink.writeChildren, if_neg (by simp [h.1.isSilent])]
        exact written_commas h.2 (Sink.frame_write {} f).1
      refine (raw_tree hflows).trans ?_
      rw [hlevel]
      exact (List.append_nil _).trans hchildren
    have hframed : ∀ l ∈ fs.map raw, Text.IsFramed l := by
      intro l hl
      obtain ⟨g, hg, rfl⟩ := List.mem_map.1 hl
      exact (h.2 g hg).toIsFramed
    refine ⟨⟨hflows, ?_⟩, ?_⟩
    · rw [hraw]
      exact Text.closes_of_ends (Text.ends_commas h.1.ends hframed)
    · rw [hraw, Text.stripLineEnds_commas h.1.closes.closes hframed, List.map_cons,
        Text.intercalate_cons, List.map_map]
      simp only [Function.comp_def, toList_render]
      rfl

end Fragment

end Layout

end CodeSample

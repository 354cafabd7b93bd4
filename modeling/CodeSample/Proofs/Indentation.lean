import CodeSample.Proofs.Braces

/-!
# Output that is indented by its braces

What it takes of a fragment that the text which it writes is indented by the braces in it. The
invariant is one of sinks: what has been written obeys the law of indentation, and the level is that
of the braces which are open. It is broken between an opening brace and the change of the level
behind it, and restored with the closing brace.

* `Sink.Holds` is the invariant, `Fragment.Keeps` says that writing a fragment keeps it;
* `Fragment.IsPhrase` are the fragments that are written on one line and close their braces, and
  `Fragment.IsTerm` those of them that start with a character which is no white space;
* `IsTerm.keeps`: the latter keep the invariant;
* `keeps_tree` and `keeps_braces` are the blocks: children under one another, and in braces;
* `Fragment.braced_render`: the text of a fragment that keeps the invariant obeys the law.
-/

namespace CodeSample

/-- A text starts with a character that is no white space. -/
def Text.Leads (s : String) : Prop := ∃ c rest, s.toList = c :: rest ∧ Text.isBlank c = false

instance (s : String) : Decidable (Text.Leads s) :=
  decidable_of_iff (s.toList.head?.any (!Text.isBlank ·) = true) <| by
    unfold Text.Leads
    cases s.toList <;> simp

/-- How a text starts is how it starts with another one behind it. -/
theorem Text.Leads.append {s : String} (h : Leads s) (t : String) : Leads (s ++ t) := by
  obtain ⟨c, rest, hs, hc⟩ := h
  exact ⟨c, rest ++ t.toList, by rw [String.toList_append, hs, List.cons_append], hc⟩

namespace Layout

open Text (nest Balanced Indented Ruled joinLines Leads)

namespace Sink

/-! ### Writing text -/

/-- Two texts are written one after the other. -/
theorem put_append (s : Sink) (t u : String) : s.put (t ++ u) = (s.put t).put u := by
  unfold put
  rw [String.toList_append, List.foldl_append]

/-- Writing the empty text changes nothing. -/
theorem put_empty (s : Sink) : s.put "" = s := rfl

/-- A line break starts a line that has the blanks of the level. -/
theorem put_newline (s : Sink) : s.put "\n" =
    { s with written := s.written.push '\n' ++ margin s.level, line := margin s.level } := rfl

/-- A margin is as many blanks as the level says, and none below zero. -/
theorem toList_margin (level : Int) : (margin level).toList = List.replicate level.toNat ' ' :=
  String.toList_ofList

/-- There are only blanks in a margin. -/
theorem all_isBlank_margin (level : Int) : (margin level).toList.all Text.isBlank = true := by
  rw [toList_margin, List.all_replicate, Text.isBlank_space]
  simp

/-- There is no line break in a margin. -/
theorem newline_not_mem_margin (level : Int) : '\n' ∉ (margin level).toList := by
  rw [toList_margin]
  exact Text.not_mem_blanks (by decide) _

/-- A text without line breaks is written on the current line. -/
theorem put_of_not_mem {t : String} (h : '\n' ∉ t.toList) (s : Sink) :
    s.put t = { s with written := s.written ++ t, line := s.line ++ t } := by
  have chars (cs : List Char) (hcs : '\n' ∉ cs) (s : Sink) : cs.foldl putChar s =
      { s with written := s.written ++ String.ofList cs, line := s.line ++ String.ofList cs } := by
    induction cs generalizing s with
    | nil => simp
    | cons c cs ih =>
      rw [List.mem_cons, not_or] at hcs
      have hput : s.putChar c = { s with written := s.written.push c, line := s.line.push c } := by
        unfold putChar
        rw [if_neg (Ne.symm hcs.1)]
      have hpush (w : String) : w.push c ++ String.ofList cs = w ++ String.ofList (c :: cs) := by
        rw [← String.toList_inj]
        simp
      rw [List.foldl_cons, hput, ih hcs.2]
      simp only [hpush]
  have := chars t.toList h s
  rwa [String.ofList_toList] at this

/-- A text without line breaks is written alike at every level. -/
theorem pop_put_push {t : String} (h : '\n' ∉ t.toList) (s : Sink) (d : Int) :
    ((s.push d).put t).pop = s.put t := by
  rw [put_of_not_mem h, put_of_not_mem h]
  rfl

/-! ### Levels are restored -/

/-- Writing a character leaves the levels as they are. -/
theorem frame_putChar (s : Sink) (c : Char) :
    (s.putChar c).level = s.level ∧ (s.putChar c).outer = s.outer := by
  unfold putChar
  split <;> exact ⟨rfl, rfl⟩

/-- Writing a text leaves the levels as they are. -/
theorem frame_put (s : Sink) (t : String) :
    (s.put t).level = s.level ∧ (s.put t).outer = s.outer := by
  unfold put
  induction t.toList generalizing s with
  | nil => exact ⟨rfl, rfl⟩
  | cons c cs ih =>
    obtain ⟨hlevel, houter⟩ := frame_putChar s c
    rw [List.foldl_cons, ← hlevel, ← houter]
    exact ih _

/-- Coming to the start of a line leaves the levels as they are. -/
theorem frame_freshLine (s : Sink) :
    s.freshLine.level = s.level ∧ s.freshLine.outer = s.outer := by
  unfold freshLine
  split
  · exact ⟨rfl, rfl⟩
  · exact frame_put s "\n"

mutual

/-- Writing a fragment leaves the levels as they were. -/
theorem frame_write (s : Sink) (f : Fragment) :
    (s.write f).level = s.level ∧ (s.write f).outer = s.outer := by
  match f with
  | .nothing | .alien => exact ⟨rfl, rfl⟩
  | .text t => exact frame_put s t
  | .tree front children style =>
    rw [write]
    obtain ⟨hlevel, houter⟩ := frame_writeAll s front
    generalize s.writeAll front = s' at hlevel houter ⊢
    generalize (if Fragment.allSilent children then 0 else style.indent.columns) = delta
    obtain ⟨-, hchildren⟩ := frame_writeChildren (s'.push delta) style.separator true children
    have hpop (u : Sink) (hu : u.outer = s'.level :: s'.outer) :
        u.pop.level = s'.level ∧ u.pop.outer = s'.outer := by
      unfold pop pop?
      rw [hu]
      exact ⟨rfl, rfl⟩
    obtain ⟨hput, hput'⟩ := frame_put
      ((s'.push delta).writeChildren style.separator true children).pop (style.closing.getD "")
    obtain ⟨hpop, hpop'⟩ := hpop _ hchildren
    exact ⟨hput.trans (hpop.trans hlevel), hput'.trans (hpop'.trans houter)⟩

/-- Writing fragments leaves the levels as they were: each change of them is undone. -/
theorem frame_writeAll (s : Sink) (fs : List Fragment) :
    (s.writeAll fs).level = s.level ∧ (s.writeAll fs).outer = s.outer := by
  match fs with
  | [] => exact ⟨rfl, rfl⟩
  | f :: fs =>
    obtain ⟨hlevel, houter⟩ := frame_write s f
    rw [writeAll, ← hlevel, ← houter]
    exact frame_writeAll _ fs

/-- Writing children with separators leaves the levels as they were. -/
theorem frame_writeChildren (s : Sink) (separator : Option String) (first : Bool)
    (fs : List Fragment) : (s.writeChildren separator first fs).level = s.level ∧
      (s.writeChildren separator first fs).outer = s.outer := by
  match fs with
  | [] => exact ⟨rfl, rfl⟩
  | f :: fs =>
    rw [writeChildren]
    split
    · exact frame_writeChildren s separator first fs
    · have hput : (if first then s else s.put (separator.getD "")).level = s.level ∧
          (if first then s else s.put (separator.getD "")).outer = s.outer := by
        split
        · exact ⟨rfl, rfl⟩
        · exact frame_put s _
      generalize (if first then s else s.put (separator.getD "")) = u at hput ⊢
      have hfresh : (if separator.isNone && f.isFresh then u.freshLine else u).level = u.level ∧
          (if separator.isNone && f.isFresh then u.freshLine else u).outer = u.outer := by
        split
        · exact frame_freshLine u
        · exact ⟨rfl, rfl⟩
      dsimp only
      generalize (if separator.isNone && f.isFresh then u.freshLine else u) = v at hfresh ⊢
      obtain ⟨hwrite, hwrite'⟩ := frame_write v f
      obtain ⟨hrest, hrest'⟩ := frame_writeChildren (v.write f) separator false fs
      exact ⟨hrest.trans (hwrite.trans (hfresh.1.trans hput.1)),
        hrest'.trans (hwrite'.trans (hfresh.2.trans hput.2))⟩

end

/-- The level after the children of a tree is that in front of them. -/
theorem pop_writeChildren (s : Sink) (d : Int) (separator : Option String) (first : Bool)
    (fs : List Fragment) : ((s.push d).writeChildren separator first fs).pop =
      { (s.push d).writeChildren separator first fs with level := s.level, outer := s.outer } := by
  unfold pop pop?
  rw [(frame_writeChildren (s.push d) separator first fs).2]
  rfl

/-- Two lists of fragments are written one after the other. -/
theorem writeAll_append (s : Sink) (fs gs : List Fragment) :
    s.writeAll (fs ++ gs) = (s.writeAll fs).writeAll gs := by
  induction fs generalizing s with
  | nil => rw [List.nil_append, writeAll]
  | cons f fs ih => rw [List.cons_append, writeAll, writeAll, ih]

/-- Children that write nothing leave the sink as it is, separators included. -/
theorem writeChildren_of_allSilent {fs : List Fragment} (h : Fragment.allSilent fs = true)
    (s : Sink) (separator : Option String) (first : Bool) :
    s.writeChildren separator first fs = s := by
  induction fs with
  | nil => rfl
  | cons f fs ih =>
    rw [Fragment.allSilent, Bool.and_eq_true] at h
    rw [writeChildren, if_pos h.1, ih h.2]

/-! ### The invariant -/

/-- Blanks open no brace and close none. -/
theorem balanced_blanks (n : Nat) : Balanced (List.replicate n ' ') := by
  apply Text.balanced_of_not_mem
  · exact Text.not_mem_blanks (by decide) n
  · exact Text.not_mem_blanks (by decide) n

/-- What has been written, as lines: those above the current one obey the law, and `a` braces are
open. -/
structure Reads (k a : Nat) (above : List (List Char)) (s : Sink) : Prop where
  written : s.written.toList = joinLines above s.line.toList
  ruled : Ruled k above
  nested : nest 0 (above.flatten ++ s.line.toList) = some a
  unbroken : '\n' ∉ s.line.toList

/-- The current line is blank, with the blanks that `b` braces ask for, while `a` are open. -/
def IsBlank (k a b : Nat) (s : Sink) : Prop :=
  ∃ above, s.Reads k a above ∧ s.line.toList = List.replicate (k * b) ' '

/-- The current line has been begun as the law says. -/
def IsBegun (k a : Nat) (s : Sink) : Prop :=
  ∃ above, s.Reads k a above ∧ Indented k above.flatten s.line.toList

/-- What has been written obeys the law. -/
def Obeys (k a : Nat) (s : Sink) : Prop := (∃ b, s.IsBlank k a b) ∨ s.IsBegun k a

/-- What has been written obeys the law, and the level is that of the braces which are open. A
blank line has the blanks of the level. -/
def Holds (k a : Nat) (s : Sink) : Prop := s.level = k * a ∧ (s.IsBlank k a a ∨ s.IsBegun k a)

variable {k a b : Nat} {s : Sink} {t : String}

/-- Where the invariant holds, what has been written obeys the law. -/
theorem Holds.obeys (h : s.Holds k a) : s.Obeys k a := h.2.imp (fun hblank => ⟨a, hblank⟩) id

/-- The levels take no part in what has been written. -/
theorem Reads.congr {u : Sink} {above : List (List Char)} (h : s.Reads k a above)
    (hwritten : u.written = s.written) (hline : u.line = s.line) : u.Reads k a above := by
  obtain ⟨hw, hr, hn, hu⟩ := h
  rw [← hwritten, ← hline] at hw
  rw [← hline] at hn hu
  exact ⟨hw, hr, hn, hu⟩

/-- Whether the line is blank is a matter of what has been written. -/
theorem IsBlank.congr {u : Sink} (h : s.IsBlank k a b) (hwritten : u.written = s.written)
    (hline : u.line = s.line) : u.IsBlank k a b := by
  obtain ⟨above, hreads, hl⟩ := h
  exact ⟨above, hreads.congr hwritten hline, by rw [hline, hl]⟩

/-- Whether the line is begun as the law says is a matter of what has been written. -/
theorem IsBegun.congr {u : Sink} (h : s.IsBegun k a) (hwritten : u.written = s.written)
    (hline : u.line = s.line) : u.IsBegun k a := by
  obtain ⟨above, hreads, hl⟩ := h
  exact ⟨above, hreads.congr hwritten hline, by rwa [hline]⟩

/-- Whether the law is obeyed is a matter of what has been written. -/
theorem Obeys.congr {u : Sink} (h : s.Obeys k a) (hwritten : u.written = s.written)
    (hline : u.line = s.line) : u.Obeys k a :=
  h.imp (fun ⟨b, hb⟩ => ⟨b, hb.congr hwritten hline⟩) (·.congr hwritten hline)

/-- The invariant holds of any sink with the same text whose level is right. -/
theorem Holds.congr {u : Sink} (h : s.Holds k a) (hwritten : u.written = s.written)
    (hline : u.line = s.line) (hlevel : u.level = k * a) : u.Holds k a :=
  ⟨hlevel, h.2.imp (·.congr hwritten hline) (·.congr hwritten hline)⟩

/-- A text without line breaks goes on the current line, and the braces in it count. -/
theorem Reads.put {above : List (List Char)} (h : s.Reads k a above) (ht : '\n' ∉ t.toList)
    (hb : nest a t.toList = some b) : (s.put t).Reads k b above := by
  rw [put_of_not_mem ht]
  refine ⟨?_, h.ruled, ?_, ?_⟩
  · simp only [String.toList_append]
    rw [h.written]
    simp [joinLines]
  · simp only [String.toList_append]
    rw [← List.append_assoc, Text.nest_append, h.nested]
    exact hb
  · simp only [String.toList_append, List.mem_append, not_or]
    exact ⟨h.unbroken, ht⟩

/-- A line that has been begun goes on. -/
theorem IsBegun.put (h : s.IsBegun k a) (ht : '\n' ∉ t.toList) (hb : nest a t.toList = some b) :
    (s.put t).IsBegun k b := by
  obtain ⟨above, hreads, d, c, rest, hline, hc, hd⟩ := h
  refine ⟨above, hreads.put ht hb, d, c, rest ++ t.toList, ?_, hc, hd⟩
  rw [put_of_not_mem ht]
  simp only [String.toList_append]
  rw [hline, List.append_assoc, List.cons_append]

/-- A blank line is begun with a text that starts with a character which is no white space. The
blanks have to be those of the open braces, less one if the character closes one. -/
theorem IsBlank.put {a' : Nat} (h : s.IsBlank k a b) (ht : '\n' ∉ t.toList)
    {c : Char} {rest : List Char} (hlead : t.toList = c :: rest) (hc : Text.isBlank c = false)
    (hb : (b : Int) = a - if c = '\x7d' then 1 else 0) (ha' : nest a t.toList = some a') :
    (s.put t).IsBegun k a' := by
  obtain ⟨above, hreads, hline⟩ := h
  have hopened : (a : Int) = Text.opened above.flatten := by
    have hnest := hreads.nested
    rw [hline, Text.nest_append] at hnest
    obtain ⟨m, hm, hma⟩ := Option.bind_eq_some_iff.1 hnest
    rw [(balanced_blanks _).nest m] at hma
    obtain rfl := Option.some.inj hma
    have := Text.opened_of_nest hm
    omega
  refine ⟨above, hreads.put ht ha', b, c, rest, ?_, hc, by rw [← hopened, hb]⟩
  rw [put_of_not_mem ht]
  simp only [String.toList_append]
  rw [hline, hlead]

/-- What obeys the law consists of the lines above and of a line, blank or begun, that the law
admits. -/
theorem Obeys.reads (h : s.Obeys k a) :
    ∃ above, s.Reads k a above ∧ Text.IsLine k above.flatten s.line.toList := by
  rcases h with ⟨b, above, hreads, hline⟩ | ⟨above, hreads, hline⟩
  · refine ⟨above, hreads, hreads.unbroken, Or.inl fun c hc => ?_⟩
    rw [hline] at hc
    exact List.eq_of_mem_replicate hc
  · exact ⟨above, hreads, hreads.unbroken, Or.inr hline⟩

/-- Behind a line that obeys the law, a line break makes a blank one with the blanks of the level.
-/
theorem Obeys.put_newline (h : s.Obeys k a) (hlevel : s.level = k * b) :
    (s.put "\n").IsBlank k a b := by
  obtain ⟨above, hreads, hline⟩ := h.reads
  have hmargin : (margin s.level).toList = List.replicate (k * b) ' ' := by
    unfold margin
    rw [hlevel, String.toList_ofList]
    rfl
  rw [Sink.put_newline]
  refine ⟨above ++ [s.line.toList], ⟨?_, hreads.ruled.concat hline, ?_, ?_⟩, hmargin⟩
  · simp only [String.toList_append, String.toList_push]
    rw [Text.joinLines_concat, hreads.written]
    simp [joinLines]
  · simp only [hmargin, List.flatten_append, List.flatten_cons, List.flatten_nil, List.append_nil]
    rw [Text.nest_append, hreads.nested]
    exact (balanced_blanks _).nest a
  · simp only [hmargin]
    exact Text.not_mem_blanks (by decide) _

/-- The invariant is kept by a line break. -/
theorem Holds.put_newline (h : s.Holds k a) : (s.put "\n").Holds k a := by
  refine ⟨?_, Or.inl (h.obeys.put_newline h.1)⟩
  rw [(frame_put s "\n").1, h.1]

/-- The invariant is kept by coming to the start of a line. -/
theorem Holds.freshLine (h : s.Holds k a) : s.freshLine.Holds k a := by
  unfold Sink.freshLine
  split
  · exact h
  · exact h.put_newline

/-- A text that starts with a character which is no white space, and closes its braces. -/
theorem Holds.put (h : s.Holds k a) (ht : '\n' ∉ t.toList) (hlead : Leads t)
    (hb : Balanced t.toList) : (s.put t).Holds k a := by
  refine ⟨by rw [(frame_put s t).1, h.1], Or.inr ?_⟩
  rcases h.2 with hblank | hbegun
  · obtain ⟨c, rest, hcs, hc⟩ := hlead
    have hclosing : c ≠ '\x7d' := by
      rintro rfl
      unfold Text.Balanced at hb
      rw [hcs, Text.nest_cons, if_neg (by decide), if_pos rfl, if_pos rfl] at hb
      cases hb
    exact hblank.put ht hcs hc (by rw [if_neg hclosing]; omega) (hb.nest a)
  · exact hbegun.put ht (hb.nest a)

/-- An opening brace on a line of its own. It is not counted in the level yet. -/
theorem Holds.put_opening (h : s.Holds k a) : (s.put "\n\x7b").IsBegun k (a + 1) := by
  have hblank := h.obeys.put_newline h.1
  rw [show "\n\x7b" = "\n" ++ "\x7b" from rfl, put_append]
  refine hblank.put (c := '\x7b') (by decide) rfl (by decide) ?_ rfl
  rw [if_neg (by decide), Int.sub_zero]

/-- A closing brace on a line of its own. It is no longer counted in the level. -/
theorem Obeys.put_closing (h : s.Obeys k (a + 1)) (hlevel : s.level = k * a) :
    (s.put "\n\x7d").Holds k a := by
  have hblank := h.put_newline hlevel
  refine ⟨?_, Or.inr ?_⟩
  · rw [(frame_put s _).1, hlevel]
  · rw [show "\n\x7d" = "\n" ++ "\x7d" from rfl, put_append]
    refine hblank.put (c := '\x7d') (by decide) rfl (by decide) ?_ rfl
    rw [if_pos rfl]
    omega

/-- The invariant holds before anything is written, with no brace open. -/
theorem holds_empty (k : Nat) : Holds k 0 {} := by
  refine ⟨rfl, Or.inl ⟨[], ⟨rfl, Text.ruled_nil k, rfl, ?_⟩, rfl⟩⟩
  exact List.not_mem_nil

/-- The text of a sink in which no brace is open. -/
theorem Holds.braced (h : s.Holds k 0) : Text.Braced k s.text := by
  obtain ⟨above, hreads, hline⟩ := h.obeys.reads
  unfold text
  rw [hreads.written]
  refine Text.braced_stripLineEnds (hreads.ruled.concat hline) ?_
  unfold Text.Balanced
  rw [Text.nest_joinLines]
  exact hreads.nested

end Sink

/-! ### Fragments on one line -/

namespace Fragment

/-- A fragment is written on the current line, without any layout. -/
structure IsInline (f : Fragment) : Prop where
  writes : ∀ s : Sink, s.write f = s.put f.flat
  unbroken : '\n' ∉ f.flat.toList

/-- A fragment is written on the current line, and closes its braces. -/
structure IsPhrase (f : Fragment) : Prop extends f.IsInline where
  balanced : Balanced f.flat.toList

/-- A phrase that starts with a character which is no white space. -/
structure IsTerm (f : Fragment) : Prop extends f.IsPhrase where
  leads : Leads f.flat

variable {fs front children : List Fragment} {style : Style} {t : String}

/-- A text without line breaks is written on the current line. -/
theorem isInline_text (h : '\n' ∉ t.toList) : (text t).IsInline where
  writes := fun s => by rw [Sink.write, flat]
  unbroken := by rwa [flat]

/-- A text without line breaks that closes its braces is a phrase. -/
theorem isPhrase_text (h : '\n' ∉ t.toList) (hb : Balanced t.toList) : (text t).IsPhrase where
  toIsInline := isInline_text h
  balanced := by rwa [flat]

/-- Fragments one after the other. -/
theorem flats_of_isInline (h : ∀ f ∈ fs, f.IsInline) :
    (∀ s : Sink, s.writeAll fs = s.put (flats fs)) ∧ '\n' ∉ (flats fs).toList := by
  induction fs with
  | nil =>
    refine ⟨fun s => ?_, ?_⟩
    · rw [Sink.writeAll, flats, Sink.put_empty]
    · rw [flats]
      exact List.not_mem_nil
  | cons f fs ih =>
    have hf : f.IsInline := h f List.mem_cons_self
    obtain ⟨hwrites, hunbroken⟩ := ih fun g hg => h g (List.mem_cons_of_mem f hg)
    rw [flats]
    refine ⟨fun s => ?_, ?_⟩
    · rw [Sink.writeAll, hf.writes, hwrites, Sink.put_append]
    · rw [String.toList_append, List.mem_append, not_or]
      exact ⟨hf.unbroken, hunbroken⟩

/-- Children with a text between them. -/
theorem flatChildren_of_isInline {separator : String} (hseparator : '\n' ∉ separator.toList)
    (h : ∀ f ∈ fs, f.IsInline) (first : Bool) :
    (∀ s : Sink, s.writeChildren (some separator) first fs =
      s.put (flatChildren (some separator) first fs)) ∧
    '\n' ∉ (flatChildren (some separator) first fs).toList := by
  induction fs generalizing first with
  | nil =>
    refine ⟨fun s => ?_, ?_⟩
    · rw [Sink.writeChildren, flatChildren, Sink.put_empty]
    · rw [flatChildren]
      exact List.not_mem_nil
  | cons f fs ih =>
    have hf : f.IsInline := h f List.mem_cons_self
    have ih := ih fun g hg => h g (List.mem_cons_of_mem f hg)
    rw [flatChildren]
    by_cases hsilent : f.isSilent = true
    · rw [if_pos hsilent]
      refine ⟨fun s => ?_, (ih first).2⟩
      rw [Sink.writeChildren, if_pos hsilent, (ih first).1]
    · rw [if_neg hsilent]
      refine ⟨fun s => ?_, ?_⟩
      · rw [Sink.writeChildren, if_neg hsilent, Sink.put_append, Sink.put_append]
        cases first
        · exact (congrArg (Sink.writeChildren · _ _ _) (hf.writes _)).trans ((ih false).1 _)
        · exact (congrArg (Sink.writeChildren · _ _ _) (hf.writes _)).trans ((ih false).1 _)
      · simp only [String.toList_append, List.mem_append, not_or]
        refine ⟨⟨?_, hf.unbroken⟩, (ih false).2⟩
        cases first
        · exact hseparator
        · exact List.not_mem_nil

/-- Fragments in front and children with a text between them. -/
theorem isInline_separated {separator : String} (hfront : ∀ f ∈ front, f.IsInline)
    (hseparator : '\n' ∉ separator.toList) (hchildren : ∀ f ∈ children, f.IsInline)
    (hstyle : style.separator = some separator)
    (hclosing : '\n' ∉ (style.closing.getD "").toList) : (tree front children style).IsInline := by
  obtain ⟨hwrites, hunbroken⟩ := flats_of_isInline hfront
  obtain ⟨hwrites', hunbroken'⟩ := flatChildren_of_isInline hseparator hchildren true
  constructor
  · intro s
    rw [Sink.write, flat, hstyle, hwrites, hwrites', Sink.pop_put_push hunbroken', Sink.put_append,
      Sink.put_append]
  · rw [flat, hstyle]
    simp only [String.toList_append, List.mem_append, not_or]
    exact ⟨⟨hunbroken, hunbroken'⟩, hclosing⟩

/-- Fragments one after the other, on a line of their own or not. -/
theorem isInline_row (h : ∀ f ∈ fs, f.IsInline) (fresh : Bool) :
    (tree fs [] { fresh }).IsInline := by
  obtain ⟨hwrites, hunbroken⟩ := flats_of_isInline h
  have hflat : flat (tree fs [] { fresh }) = flats fs := by
    simp [flat, flatChildren]
  constructor
  · intro s
    rw [hflat, ← hwrites, Sink.write, Sink.writeChildren]
    rfl
  · rwa [hflat]

/-- A row consists of its fragments, one after the other. -/
theorem flat_row (fs : List Fragment) (fresh : Bool) :
    flat (tree fs [] { fresh }) = flats fs := by
  simp [flat, flatChildren]

/-- The texts of two lists of fragments follow one another. -/
theorem flats_append (fs gs : List Fragment) : flats (fs ++ gs) = flats fs ++ flats gs := by
  induction fs with
  | nil => simp [flats]
  | cons f fs ih => rw [List.cons_append, flats, flats, ih, String.append_assoc]

/-- Phrases one after the other close their braces. -/
theorem balanced_flats (h : ∀ f ∈ fs, f.IsPhrase) : Balanced (flats fs).toList := by
  induction fs with
  | nil =>
    rw [flats]
    rfl
  | cons f fs ih =>
    rw [flats, String.toList_append]
    exact (h f List.mem_cons_self).balanced.append (ih fun g hg => h g (List.mem_cons_of_mem f hg))

/-- Phrases with separators that close their braces close theirs. -/
theorem balanced_flatChildren {separator : String} (hseparator : Balanced separator.toList)
    (h : ∀ f ∈ fs, f.IsPhrase) (first : Bool) :
    Balanced (flatChildren (some separator) first fs).toList := by
  induction fs generalizing first with
  | nil =>
    rw [flatChildren]
    rfl
  | cons f fs ih =>
    have ih := ih fun g hg => h g (List.mem_cons_of_mem f hg)
    rw [flatChildren]
    split
    · exact ih first
    · simp only [String.toList_append]
      refine Balanced.append (Balanced.append ?_ (h f List.mem_cons_self).balanced) (ih false)
      cases first
      · exact hseparator
      · rfl

/-- Phrases one after the other. -/
theorem isPhrase_row (h : ∀ f ∈ fs, f.IsPhrase) (fresh : Bool) :
    (tree fs [] { fresh }).IsPhrase where
  toIsInline := isInline_row (fun f hf => (h f hf).toIsInline) fresh
  balanced := by
    rw [flat_row]
    exact balanced_flats h

/-- Phrases with a separator between them. -/
theorem isPhrase_separated {separator : String} (hseparator : '\n' ∉ separator.toList)
    (hb : Balanced separator.toList) (h : ∀ f ∈ fs, f.IsPhrase) :
    (separated separator fs).IsPhrase where
  toIsInline := isInline_separated (by simp) hseparator (fun f hf => (h f hf).toIsInline) rfl
    List.not_mem_nil
  balanced := by
    unfold separated
    rw [flat, flats]
    simpa using balanced_flatChildren hb h true

/-- Phrases between two texts, of which one closes the braces that the other opens. -/
theorem isPhrase_between {opening closing : String} (hopening : '\n' ∉ opening.toList)
    (hclosing : '\n' ∉ closing.toList) (hb : Balanced (opening.toList ++ closing.toList))
    (h : ∀ f ∈ fs, f.IsPhrase) (fresh : Bool) :
    (tree ([text opening] ++ fs ++ [text closing]) [] { fresh }).IsPhrase where
  toIsInline := by
    refine isInline_row (fun f hf => ?_) fresh
    simp only [List.mem_append, List.mem_singleton] at hf
    rcases hf with (rfl | hf) | rfl
    · exact isInline_text hopening
    · exact (h f hf).toIsInline
    · exact isInline_text hclosing
  balanced := by
    rw [flat_row, flats_append, flats_append]
    simp only [String.toList_append, flats, flat, String.append_empty]
    exact hb.between (balanced_flats h)

/-- Phrases in front, and phrases with a separator between two texts of which one closes the braces
that the other opens. -/
theorem isPhrase_enclosed {separator opening closing : String} (indent : Indent)
    (hfront : ∀ f ∈ front, f.IsPhrase) (hchildren : ∀ f ∈ children, f.IsPhrase)
    (hseparator : '\n' ∉ separator.toList) (hb : Balanced separator.toList)
    (hopening : '\n' ∉ opening.toList) (hclosing : '\n' ∉ closing.toList)
    (hbraces : Balanced (opening.toList ++ closing.toList)) :
    (tree (front ++ [text opening]) children
      { indent, separator := some separator, closing := some closing }).IsPhrase where
  toIsInline := by
    refine isInline_separated (fun f hf => ?_) hseparator (fun f hf => (hchildren f hf).toIsInline)
      rfl hclosing
    rcases List.mem_append.1 hf with hf | hf
    · exact (hfront f hf).toIsInline
    · obtain rfl := List.mem_singleton.1 hf
      exact isInline_text hopening
  balanced := by
    rw [flat, flats_append]
    simp only [String.toList_append, flats, flat, String.append_empty, Option.getD_some,
      List.append_assoc]
    refine (balanced_flats hfront).append ?_
    rw [← List.append_assoc]
    exact hbraces.between (balanced_flatChildren hb hchildren true)

/-- What the first fragment starts with is what the list starts with. -/
theorem leads_flats {f : Fragment} (h : Leads f.flat) (fs : List Fragment) :
    Leads (flats (f :: fs)) := by
  rw [flats]
  exact h.append _

/-- A fragment starts as its front does, whatever its children and its style. -/
theorem leads_tree (h : Leads (flats front)) (children : List Fragment) (style : Style) :
    Leads (tree front children style).flat := by
  rw [flat, String.append_assoc]
  exact h.append _

/-- A row of phrases is a term if it starts like one. -/
theorem isTerm_row (h : ∀ f ∈ fs, f.IsPhrase) (hlead : Leads (flats fs)) (fresh : Bool) :
    (tree fs [] { fresh }).IsTerm where
  toIsPhrase := isPhrase_row h fresh
  leads := leads_tree hlead _ _

/-- A row of one term is a term. -/
theorem isTerm_row_singleton {f : Fragment} (h : f.IsTerm) (fresh : Bool) :
    (tree [f] [] { fresh }).IsTerm :=
  isTerm_row (List.forall_mem_singleton.2 h.toIsPhrase) (leads_flats h.leads _) fresh

/-- A row whose front is made of phrases and starts like a term is a term with any phrases behind
it. -/
theorem isTerm_row_append {rest : List Fragment} (hfront : ∀ f ∈ front, f.IsPhrase)
    (hrest : ∀ f ∈ rest, f.IsPhrase) (hlead : Leads (flats front)) (fresh : Bool) :
    (tree (front ++ rest) [] { fresh }).IsTerm := by
  refine isTerm_row (List.forall_mem_append.2 ⟨hfront, hrest⟩) ?_ fresh
  rw [flats_append]
  exact hlead.append _

/-! ### Fragments that keep the invariant -/

/-- Writing a fragment keeps what has been written indented by its braces. -/
def Keeps (k : Nat) (f : Fragment) : Prop :=
  ∀ (a : Nat) (s : Sink), s.Holds k a → (s.write f).Holds k a

/-- Writing fragments one after the other keeps it. -/
def KeepsAll (k : Nat) (fs : List Fragment) : Prop :=
  ∀ (a : Nat) (s : Sink), s.Holds k a → (s.writeAll fs).Holds k a

variable {k : Nat}

/-- Writing nothing keeps the invariant. -/
theorem keepsAll_nil : KeepsAll k [] := by
  intro a s hs
  rw [Sink.writeAll]
  exact hs

/-- Writing a fragment and then others keeps the invariant if both do. -/
theorem keepsAll_cons {f : Fragment} (hf : f.Keeps k) (hfs : KeepsAll k fs) :
    KeepsAll k (f :: fs) := by
  intro a s hs
  rw [Sink.writeAll]
  exact hfs a _ (hf a s hs)

/-- Phrases that start with a character which is no white space. -/
theorem keepsAll_of_phrases (h : ∀ f ∈ fs, f.IsPhrase) (hlead : Leads (flats fs)) :
    KeepsAll k fs := by
  intro a s hs
  obtain ⟨hwrites, hunbroken⟩ := flats_of_isInline fun f hf => (h f hf).toIsInline
  rw [hwrites]
  exact hs.put hunbroken hlead (balanced_flats h)

/-- Writing a term keeps the invariant: it starts the line as the law says, or goes on with it. -/
theorem IsTerm.keeps {f : Fragment} (h : f.IsTerm) : f.Keeps k := by
  intro a s hs
  rw [h.writes]
  exact hs.put h.unbroken h.leads h.balanced

/-- Children that keep the invariant do so under one another or side by side. -/
theorem holds_writeChildren {separator : Option String} {a : Nat}
    (hseparator : separator = none ∨ separator = some "\n") (h : ∀ f ∈ fs, f.Keeps k) {s : Sink}
    (hs : s.Holds k a) (first : Bool) : (s.writeChildren separator first fs).Holds k a := by
  induction fs generalizing s first with
  | nil =>
    rw [Sink.writeChildren]
    exact hs
  | cons f fs ih =>
    have ih {s : Sink} (hs : s.Holds k a) (first : Bool) :=
      ih (fun g hg => h g (List.mem_cons_of_mem f hg)) hs first
    have hput : (s.put (separator.getD "")).Holds k a := by
      rcases hseparator with rfl | rfl
      · exact hs
      · exact hs.put_newline
    rw [Sink.writeChildren]
    split
    · exact ih hs first
    · refine ih (h f List.mem_cons_self a _ ?_) false
      have hbetween : (if first then s else s.put (separator.getD "")).Holds k a := by
        split
        · exact hs
        · exact hput
      split
      · exact hbetween.freshLine
      · exact hbetween

/-- Children under one another, on the level of what stands in front of them. -/
theorem keeps_tree (hfront : KeepsAll k front) (hchildren : ∀ f ∈ children, f.Keeps k)
    (hseparator : style.separator = none ∨ style.separator = some "\n")
    (hindent : style.indent.columns = 0) (hclosing : style.closing = none) :
    (tree front children style).Keeps k := by
  intro a s hs
  rw [Sink.write, hclosing, hindent, ite_self]
  have hs := hfront a s hs
  generalize s.writeAll front = u at hs ⊢
  have hpush : (u.push 0).Holds k a := by
    refine hs.congr rfl rfl ?_
    show u.level + 0 = k * a
    rw [hs.1, Int.add_zero]
  have hall := holds_writeChildren hseparator hchildren hpush true
  show (Sink.pop _).Holds k a
  rw [Sink.pop_writeChildren]
  exact hall.congr rfl rfl hs.1

/-- Children in braces, one step further in. The braces stand on lines of their own. -/
theorem keeps_braces (hfront : KeepsAll k front) (hchildren : ∀ f ∈ children, f.Keeps k)
    (hseparator : style.separator = none) (hindent : style.indent = .blanks k)
    (hclosing : style.closing = some "\n\x7d") :
    (tree (front ++ [text "\n\x7b"]) children style).Keeps k := by
  intro a s hs
  have hfront := hfront a s hs
  rw [Sink.write, Sink.writeAll_append, Sink.writeAll, Sink.writeAll, Sink.write, hseparator,
    hindent, hclosing]
  generalize s.writeAll front = u at hfront ⊢
  have hopening := hfront.put_opening
  have hlevel : (u.put "\n\x7b").level = k * a := by rw [(Sink.frame_put u _).1, hfront.1]
  generalize u.put "\n\x7b" = v at hopening hlevel ⊢
  generalize hdelta : (if allSilent children then 0 else (Indent.blanks k).columns) = delta
  -- behind the opening brace the level is that of the open braces again, if there are any children
  have hinside : ((v.push delta).writeChildren none true children).Obeys k (a + 1) := by
    by_cases hsilent : allSilent children = true
    · rw [Sink.writeChildren_of_allSilent hsilent]
      exact Or.inr (hopening.congr rfl rfl)
    · rw [if_neg hsilent] at hdelta
      subst hdelta
      have hpush : (v.push (Indent.blanks k).columns).Holds k (a + 1) := by
        refine ⟨?_, Or.inr (hopening.congr rfl rfl)⟩
        show v.level + (k : Int) = k * (a + 1 : Nat)
        rw [hlevel, Int.natCast_add, Int.mul_add, Int.natCast_one, Int.mul_one]
      exact (holds_writeChildren (Or.inl rfl) hchildren hpush true).obeys
  rw [Sink.pop_writeChildren]
  generalize (v.push delta).writeChildren none true children = w at hinside ⊢
  have hpop : Sink.Obeys k (a + 1) { w with level := v.level, outer := v.outer } :=
    hinside.congr rfl rfl
  exact hpop.put_closing hlevel

/-- Children in braces with nothing in front. -/
theorem keeps_block (hchildren : ∀ f ∈ children, f.Keeps k) (hseparator : style.separator = none)
    (hindent : style.indent = .blanks k) (hclosing : style.closing = some "\n\x7d") :
    (tree [text "\n\x7b"] children style).Keeps k := by
  have hbraces := keeps_braces keepsAll_nil hchildren hseparator hindent hclosing
  rwa [List.nil_append] at hbraces

/-- The text of a fragment that keeps the invariant obeys the law. -/
theorem braced_render {f : Fragment} (h : f.Keeps k) : Text.Braced k f.render :=
  (h 0 {} (Sink.holds_empty k)).braced

end Fragment

end Layout

end CodeSample

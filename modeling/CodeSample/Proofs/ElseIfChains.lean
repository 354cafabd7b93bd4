import CodeSample.Proofs.DeclaredLiterals

/-!
# Chains of conditionals

The alternative of a conditional may be a conditional again, and so on. Each of them is a tree
inside the one before, and yet the text is flat: every branch starts at the margin, with its
condition on the line of the `else` before it and its block below.

* `Fragment.IsSteady` says that a fragment writes the same wherever it starts at the margin; what
  flows is steady, and so is what starts with a line break;
* `Fragment.Lays` says what a fragment writes from the margin on; `lays_branch`, `lays_otherwise`,
  `lays_elseIf` and `lays_alternatives` say it of the trees of a conditional;
* `Node.IsElseIf` are the chains, with their branches and the block at the end;
* `CSharp.exists_chain` is the induction along a chain, `Target.text_elseIf` the statement for the
  finished text.
-/

namespace CodeSample

open Layout (Fragment Indent Sink Style)
open Layout.Sink (stripLineEnds)
open Layout.Fragment (row line)

namespace Layout

/-! ### Sinks that have come to the same place -/

namespace Sink

/-- Two sinks have gone on from two texts with the same characters, at the same level, and blank
lines are blank in both. -/
structure Beside (base' base : List Char) (s' s : Sink) : Prop where
  level : s'.level = s.level
  blank : s'.line.toList.all Text.isBlank = s.line.toList.all Text.isBlank
  written : ∃ added : List Char,
    s'.written.toList = base' ++ added ∧ s.written.toList = base ++ added

/-- A character written into two sinks keeps them beside one another. -/
theorem Beside.putChar {base' base : List Char} {s' s : Sink} (c : Char)
    (h : s'.Beside base' base s) : (s'.putChar c).Beside base' base (s.putChar c) := by
  obtain ⟨hlevel, hblank, added, hadded', hadded⟩ := h
  unfold Sink.putChar
  by_cases hc : c = '\n'
  · rw [if_pos hc, if_pos hc, hlevel]
    refine ⟨rfl, rfl, added ++ '\n' :: (margin s.level).toList, ?_, ?_⟩
    · simp [hadded']
    · simp [hadded]
  · rw [if_neg hc, if_neg hc]
    refine ⟨hlevel, ?_, added ++ [c], ?_, ?_⟩
    · rw [String.toList_push, String.toList_push, List.all_append, List.all_append, hblank]
    · rw [String.toList_push, hadded', List.append_assoc]
    · rw [String.toList_push, hadded, List.append_assoc]

/-- Every fragment keeps two sinks beside one another. -/
def Simulation.beside (base' base : List Char) : Sink.Simulation where
  holds := Beside base' base
  indent := Eq
  putChar c h := h.putChar c
  blank h := h.blank
  push hi h := ⟨by show _ + _ = _ + _; rw [h.level, hi], h.blank, h.written⟩
  push_zero h := ⟨congrArg (· + 0) h.level, h.blank, h.written⟩
  restore h hu := ⟨h.level, hu.blank, hu.written⟩

end Sink

/-! ### Fragments that write the same wherever they start -/

namespace Fragment

/-- A fragment writes the same wherever it starts, at a level without indentation. -/
def IsSteady (f : Fragment) : Prop :=
  ∀ s : Sink, s.level = 0 → (s.write f).written.toList = s.written.toList ++ f.raw

variable {f body : Fragment} {fs front children : List Fragment} {style : Style}

/-- What flows is steady: it asks for no line of its own. -/
theorem isSteady_of_flows (h : f.flows = true) : f.IsSteady := fun _ hs =>
  written_write_of_flows h hs

/-- After a line break it does not matter where the fragment has started. -/
theorem isSteady_of_break {t : String} (rest : String) (ht : t = "\n" ++ rest)
    (behind : List Fragment) :
    (tree (text t :: behind) children style).IsSteady := by
  intro s hs
  -- the rest is written into a sink that has come to the start of a line
  have hbroken (u : Sink) : u.write (tree (text t :: behind) children style) =
      (u.put "\n").write (tree (text rest :: behind) children style) := by
    rw [Sink.write, Sink.write, Sink.writeAll, Sink.writeAll, Sink.write, Sink.write, ht,
      Sink.put_append]
  have hbeside : (s.put "\n").Beside s.written.toList [] (Sink.put {} "\n") :=
    ⟨hs, by rw [Sink.put_newline, Sink.put_newline, hs], ['\n'],
      by rw [Sink.put_newline, hs]; simp [Sink.margin], rfl⟩
  obtain ⟨added, hadded', hadded⟩ :=
    ((Sink.Simulation.beside _ _).write (alike_self (fun _ => rfl) _) hbeside).written
  unfold raw
  rw [hbroken, hbroken, hadded', hadded, List.nil_append]

/-- Steady fragments write their raw texts one after the other, at level zero. -/
theorem written_writeAll_of_isSteady (h : ∀ f ∈ fs, f.IsSteady) {s : Sink} (hs : s.level = 0) :
    (s.writeAll fs).written.toList = s.written.toList ++ fs.flatMap raw := by
  induction fs generalizing s with
  | nil => exact (List.append_nil _).symm
  | cons f fs ih =>
    rw [List.forall_mem_cons] at h
    rw [Sink.writeAll, ih h.2 ((Sink.frame_write s f).1.trans hs), h.1 s hs, List.flatMap_cons,
      List.append_assoc]

/-- What adds the same characters to every sink at level zero is steady, and these are its raw text.
-/
theorem isSteady_of_written {t : List Char}
    (h : ∀ s : Sink, s.level = 0 → (s.write f).written.toList = s.written.toList ++ t) :
    f.IsSteady ∧ f.raw = t := by
  have hraw : f.raw = t := (h {} rfl).trans (List.nil_append t)
  exact ⟨fun s hs => by rw [h s hs, hraw], hraw⟩

/-- A fragment that goes on below what is in front of it: a block. -/
structure IsBody (f : Fragment) : Prop where
  steady : f.IsSteady
  plain : f.isPlain = true
  spoken : f.isSilent = false
  inline : f.isFresh = false
  breaks : ∃ rest, f.raw = '\n' :: rest

/-- What a head with a body below it writes. -/
theorem written_body (hfront : ∀ f ∈ front, f.IsSteady) (hbody : body.IsBody) (fresh : Bool)
    {s : Sink} (hs : s.level = 0) :
    (s.write (tree front [body] { indent := .blanks 0, fresh })).written.toList =
      s.written.toList ++ (front.flatMap raw ++ body.raw) := by
  have hlevel : ((s.writeAll front).push 0).level = 0 := by
    show (s.writeAll front).level + 0 = 0
    rw [(Sink.frame_writeAll s front).1, hs, Int.add_zero]
  have hchild : (((s.writeAll front).push 0).writeChildren none true [body]).written.toList =
      (s.writeAll front).written.toList ++ body.raw := by
    rw [Sink.writeChildren, if_neg (by simp [hbody.spoken]), Sink.writeChildren]
    simp only [hbody.inline, Bool.and_false, Bool.false_eq_true, if_false, if_true]
    exact hbody.steady _ hlevel
  rw [Sink.write,
    show (if allSilent [body] then 0 else (Indent.blanks 0).columns) = 0 from ite_self 0,
    Sink.pop_writeChildren]
  show (((s.writeAll front).push 0).writeChildren none true [body]).written.toList = _
  rw [hchild, written_writeAll_of_isSteady hfront hs, List.append_assoc]

/-- What fragments in a row write, on a line of their own or not. -/
theorem written_row (hfs : ∀ f ∈ fs, f.IsSteady) (fresh : Bool) {s : Sink} (hs : s.level = 0) :
    (s.write (tree fs [] { fresh })).written.toList = s.written.toList ++ fs.flatMap raw := by
  rw [Sink.write, Sink.pop_writeChildren]
  exact written_writeAll_of_isSteady hfs hs

/-- What two fragments under one another write. -/
theorem written_alternatives {f g : Fragment} (hf : f.IsSteady) (hg : g.IsSteady)
    (hspoken : f.isSilent = false) (hspoken' : g.isSilent = false) (fresh : Bool) {s : Sink}
    (hs : s.level = 0) :
    (s.write (tree [] [f, g] { separator := some "\n", fresh })).written.toList =
      s.written.toList ++ (f.raw ++ '\n' :: g.raw) := by
  have hlevel : (s.push 0).level = 0 := by
    show s.level + 0 = 0
    rw [hs, Int.add_zero]
  have hbroken : (((s.push 0).write f).put "\n").level = 0 ∧
      (((s.push 0).write f).put "\n").written.toList = s.written.toList ++ f.raw ++ ['\n'] := by
    have hwritten := hf _ hlevel
    have hlevel' : ((s.push 0).write f).level = 0 := (Sink.frame_write _ f).1.trans hlevel
    refine ⟨(Sink.frame_put _ _).1.trans hlevel', ?_⟩
    rw [Sink.put_newline, hlevel', String.toList_append, String.toList_push, hwritten]
    exact List.append_nil _
  rw [Sink.write, Sink.writeAll,
    show (if allSilent [f, g] then 0 else ({} : Style).indent.columns) = 0 from ite_self 0,
    Sink.pop_writeChildren]
  show ((s.push 0).writeChildren (some "\n") true [f, g]).written.toList = _
  rw [Sink.writeChildren, if_neg (by simp [hspoken]), Sink.writeChildren,
    if_neg (by simp [hspoken']), Sink.writeChildren]
  simp only [Option.isNone_some, Bool.false_and, Bool.false_eq_true, if_false, if_true,
    Option.getD_some]
  rw [hg _ hbroken.1, hbroken.2]
  simp

/-! ### Finished texts -/

/-- The text of what goes on below is finished for itself. -/
theorem IsBody.stripLineEnds (h : body.IsBody) (cs : List Char) :
    Sink.stripLineEnds (cs ++ body.raw) = Sink.stripLineEnds cs ++ body.render.toList := by
  obtain ⟨rest, hrest⟩ := h.breaks
  rw [toList_render, hrest, Text.stripLineEnds_newline]
  exact congrArg _ (Text.stripLineEnds_newline [] rest).symm

/-- A fragment writes a text from the margin, with ink at the start. -/
structure Lays (f : Fragment) (t : String) : Prop where
  steady : f.IsSteady
  plain : f.isPlain = true
  spoken : f.isSilent = false
  begins : Text.Begins f.raw
  text : Sink.stripLineEnds f.raw = t.toList

/-- The finished text of a fragment is what it lays. -/
theorem Lays.render {t : String} (h : f.Lays t) : f.render = t := by
  rw [← String.toList_inj, toList_render, h.text]

/-- A branch: the head of a conditional with its block. -/
theorem lays_branch {c : Fragment} (hc : c.IsFramed) (hbody : body.IsBody) :
    (tree [text "if (", c, text ") "] [body] { indent := .blanks 0, fresh := true }).Lays
      ("if (" ++ c.render ++ ")" ++ body.render) := by
  have hfront : ∀ f ∈ [text "if (", c, text ") "], f.IsSteady := by
    intro f hf
    refine isSteady_of_flows ?_
    simp only [List.mem_cons, List.not_mem_nil, or_false] at hf
    rcases hf with rfl | rfl | rfl
    · exact flows_text _
    · exact hc.flows
    · exact flows_text _
  obtain ⟨hsteady, hraw⟩ :=
    isSteady_of_written fun s hs => written_body hfront hbody true (s := s) hs
  have hhead : [text "if (", c, text ") "].flatMap raw =
      "if (".toList ++ (c.raw ++ ") ".toList) := by
    simp
  refine ⟨hsteady, ?_, by simp [isSilent, isThere], ?_, ?_⟩
  · simp [isPlain, allPlain, isPlain_of_flows hc.flows, hbody.plain, Indent.isWhole]
  · rw [hraw, hhead]
    exact ⟨'i', rfl, by decide⟩
  · rw [hraw, hbody.stripLineEnds, hhead, Text.stripLineEnds_append (by decide),
      Text.stripLineEnds_append hc.closes.closes, ← toList_render]
    simp only [String.toList_append, List.append_assoc]
    rfl

/-- The block that is written where no condition holds. -/
theorem lays_otherwise (hbody : body.IsBody) :
    (tree [text "else "] [body] { indent := .blanks 0, fresh := true }).Lays
      ("else" ++ body.render) := by
  have hword : ∀ g ∈ [text "else "], g.IsSteady := by simp [isSteady_of_flows]
  obtain ⟨hsteady, hraw⟩ :=
    isSteady_of_written fun s hs => written_body hword hbody true (s := s) hs
  have hhead : [text "else "].flatMap raw = "else ".toList := by simp
  refine ⟨hsteady, ?_, by simp [isSilent, isThere], ?_, ?_⟩
  · simp [isPlain, allPlain, hbody.plain, Indent.isWhole]
  · rw [hraw, hhead]
    exact ⟨'e', rfl, by decide⟩
  · rw [hraw, hbody.stripLineEnds, hhead, String.toList_append]
    exact congrArg (· ++ _) (by decide)

/-- A conditional on the line of an `else`. -/
theorem lays_elseIf {t : String} (hf : f.Lays t) :
    (line [text "else ", f]).Lays ("else " ++ t) := by
  have hfront : ∀ g ∈ [text "else ", f], g.IsSteady := by
    simp [isSteady_of_flows, hf.steady]
  obtain ⟨hsteady, hraw⟩ : (line [text "else ", f]).IsSteady ∧ (line [text "else ", f]).raw = _ :=
    isSteady_of_written fun s hs => written_row hfront true (s := s) hs
  have hwords : [text "else ", f].flatMap raw = "else".toList ++ ' ' :: f.raw := by simp
  refine ⟨hsteady, ?_, by simp [line, isSilent, isThere], ?_, ?_⟩
  · simp [isPlain, allPlain, line, hf.plain, Indent.isWhole]
  · rw [hraw, hwords]
    exact ⟨'e', rfl, by decide⟩
  · rw [hraw, hwords, Text.stripLineEnds_append (by decide), Text.stripLineEnds_space hf.begins,
      hf.text, String.toList_append]
    rfl

/-- A branch and what is tried if its condition fails, under one another. -/
theorem lays_alternatives {g : Fragment} {t u : String} (hf : f.Lays t) (hg : g.Lays u) :
    (tree [] [f, g] { separator := some "\n", fresh := true }).Lays (t ++ "\n" ++ u) := by
  obtain ⟨hsteady, hraw⟩ := isSteady_of_written fun s hs =>
    written_alternatives hf.steady hg.steady hf.spoken hg.spoken true (s := s) hs
  refine ⟨hsteady, ?_, by simp [isSilent, allSilent, hf.spoken], ?_, ?_⟩
  · simp [isPlain, allPlain, hf.plain, hg.plain, Indent.isWhole]
  · rw [hraw]
    exact Text.begins_append hf.begins _
  · rw [hraw, Text.stripLineEnds_newline, hf.text, hg.text]
    simp

end Fragment

end Layout

/-! ### Chains -/

/-- A chain of conditionals: the conditions with their blocks, and the last block if there is one.
-/
inductive Node.IsElseIf : List (Node × Node) → Option Node → Node → Prop where
  | alone {n c b : Node} : n.kind = .ifStatement → n.get .expression = c.toValue →
    n.get .thenStatement = b.toValue → n.get .elseStatement = .null → IsElseIf [(c, b)] none n
  | otherwise {n c b last : Node} : n.kind = .ifStatement → n.get .expression = c.toValue →
    n.get .thenStatement = b.toValue → n.get .elseStatement = last.toValue →
    last.kind = .block → IsElseIf [(c, b)] (some last) n
  | elseIf {n m c b : Node} {branches : List (Node × Node)} {last? : Option Node} :
    n.kind = .ifStatement → n.get .expression = c.toValue → n.get .thenStatement = b.toValue →
    n.get .elseStatement = m.toValue → IsElseIf branches last? m →
    IsElseIf ((c, b) :: branches) last? n

/-- A chain is a conditional. -/
theorem Node.IsElseIf.kind {branches : List (Node × Node)} {last? : Option Node} {n : Node}
    (h : n.IsElseIf branches last?) : n.kind = .ifStatement := by
  cases h <;> assumption

namespace CSharp

open Layout.Fragment (IsBody Lays lays_branch lays_otherwise lays_elseIf lays_alternatives)

variable {indent : Indent} {preferStruct : Data} {checker : Checker} {n m c b : Node}

/-- A block goes on below what is in front of it. -/
theorem exists_body (hindent : indent.isWhole = true) (preferStruct : Data)
    (hchecker : checker.IsTabled) (hb : b.IsProgram) (hk : b.kind = .block) :
    ∃ f : Fragment, f.IsBody ∧
      ((backend indent preferStruct).convert checker (place preferStruct false) b.toValue).Gives
        (· = f) ∧
      textAt indent preferStruct checker false b.toValue = .ok f.render := by
  have hrule : rule? indent b.kind = some (blockStatement indent) := by
    rw [hk]
    rfl
  obtain ⟨f, hf, hplain⟩ := gives_plain_convert hindent preferStruct
    (c := place preferStruct false) ⟨hb, by rw [hk]; decide⟩ (Or.inl rfl) hchecker
  have hblock : (blockStatement indent ((backend indent preferStruct).view checker
      (place preferStruct false)) b).Ensures fun f => ∃ parts,
        f = .tree [.text "\n\x7b"] parts { indent, closing := some "\n\x7d" } :=
    Run.ensures_bind fun parts => Run.ensures_pure ⟨parts, rfl⟩
  obtain ⟨parts, rfl⟩ := hblock f (by rw [← convert_of_rule hrule]; exact hf)
  refine ⟨_, ⟨Layout.Fragment.isSteady_of_break "\x7b" rfl [], hplain, ?_, rfl, ?_⟩,
    ⟨_, hf, rfl⟩, ?_⟩
  · simp [Layout.Fragment.isSilent, Layout.Fragment.isThere]
  · obtain ⟨rest, hrest⟩ := Sink.exists_written_tree {} [.text "\n\x7b"] parts
      { indent, closing := some "\n\x7d" }
    exact ⟨_, hrest⟩
  · unfold textAt Backend.textIn
    rw [hf]
    exact Fragment.output_of_isPlain hplain

/-- A block brings its own indentation. -/
theorem bodyIndent_block (indent : Indent) (hk : b.kind = .block) :
    bodyIndent indent b.toValue = .blanks 0 := by
  unfold bodyIndent
  rw [if_pos (by simp [Value.isKind, Value.kind?, hk])]

/-- What stands below a branch: a conditional on the line of its `else`, or anything else below
that. -/
def underElse (indent : Indent) (m : Node) (z : Fragment) : Fragment :=
  if m.kind = .ifStatement then line [.text "else ", z]
  else withBody indent [.text "else "] m.toValue z

/-- The text of a branch, by the texts of its condition and of its block. -/
def branchText (text : Value → Except Fault String) (branch : Node × Node) :
    Except Fault String := do
  return "if (" ++ (← text branch.1.toValue) ++ ")" ++ (← text branch.2.toValue)

/-- The text of the last block, if there is one. -/
def lastText (text : Value → Except Fault String) : Option Node → Except Fault String
  | none => .ok ""
  | some b => do return "\nelse" ++ (← text b.toValue)

/-- A branch of a chain: an expression without white space in its words, and a block. -/
structure IsBranch (branch : Node × Node) : Prop where
  condition : branch.1.IsUnspacedProgram
  expression : branch.1.kind ∈ Kind.expressions
  body : branch.2.IsProgram
  block : branch.2.kind = .block

section

variable (hindent : indent.isWhole = true) (preferStruct : Data) (hchecker : checker.IsTabled)
include hindent hchecker

/-- The head and the block of a branch are written one below the other. -/
theorem exists_branch (hbranch : IsBranch (c, b)) : ∃ x y t,
    ((backend indent preferStruct).convert checker (place preferStruct false) c.toValue).Gives
      (· = x) ∧
    ((backend indent preferStruct).convert checker (place preferStruct false) b.toValue).Gives
      (· = y) ∧
    branchText (textAt indent preferStruct checker false) (c, b) = .ok t ∧
    (withBody indent [.text "if (", x, .text ") "] b.toValue y).Lays t := by
  obtain ⟨x, hx, hconvert, htext⟩ :=
    exists_framed preferStruct hindent hchecker hbranch.condition hbranch.expression false
  obtain ⟨y, hy, hconvert', htext'⟩ :=
    exists_body hindent preferStruct hchecker hbranch.body hbranch.block
  refine ⟨x, y, "if (" ++ x.render ++ ")" ++ y.render, hconvert, hconvert', ?_, ?_⟩
  · unfold branchText
    rw [htext, htext']
    rfl
  · unfold withBody
    rw [bodyIndent_block indent hbranch.block]
    exact lays_branch hx hy

/-- A conditional writes its branch, and below it what is written for its alternative. -/
theorem exists_conditional (hk : n.kind = .ifStatement) (hcondition : n.get .expression = c.toValue)
    (hbody : n.get .thenStatement = b.toValue) (hbranch : IsBranch (c, b)) : ∃ t,
    branchText (textAt indent preferStruct checker false) (c, b) = .ok t ∧
    (n.get .elseStatement = .null → ∃ f,
      ((backend indent preferStruct).convert checker (place preferStruct false) n.toValue).Gives
        (· = f) ∧ f.Lays t) ∧
    ∀ (m : Node) z u, n.get .elseStatement = m.toValue →
      ((backend indent preferStruct).convert checker (place preferStruct false) m.toValue).Gives
        (· = z) → (underElse indent m z).Lays u → ∃ f,
      ((backend indent preferStruct).convert checker (place preferStruct false) n.toValue).Gives
        (· = f) ∧ f.Lays (t ++ "\n" ++ u) := by
  obtain ⟨x, y, t, hx, hy, ht, hlays⟩ := exists_branch hindent preferStruct hchecker hbranch
  have hrule : rule? indent n.kind = some (ifStatement indent) := by
    rw [hk]
    rfl
  rw [convert_of_rule hrule]
  refine ⟨t, ht, fun hnull => ?_, fun m z u hm hz hu => ?_⟩
  · refine ⟨_, (gives_ifStatement _ (D := fun _ => False) (hcondition ▸ hx) (hbody ▸ hy)
      (Or.inl hnull)).mono ?_, hlays⟩
    rintro r ⟨_, _, rfl, rfl, ⟨-, rfl⟩ | ⟨_, hfalse, -⟩⟩
    · rw [hbody]
    · exact hfalse.elim
  · have hnode : n.get .elseStatement ≠ .null := by
      rw [hm]
      nofun
    refine ⟨_, (gives_ifStatement _ (D := (· = z)) (hcondition ▸ hx) (hbody ▸ hy)
      (Or.inr (hm ▸ hz))).mono ?_, lays_alternatives hlays hu⟩
    rintro r ⟨_, _, rfl, rfl, ⟨hnull, -⟩ | ⟨_, rfl, w, hw, rfl⟩⟩
    · exact absurd hnull hnode
    · rw [hm] at hw
      rw [hbody]
      unfold underElse
      rcases hw with ⟨hkind, rfl⟩ | ⟨hkind, rfl⟩
      · rw [if_pos (by simpa [Value.isKind, Value.kind?] using hkind)]
      · rw [if_neg (by simpa [Value.isKind, Value.kind?] using hkind)]

/-- A chain is written branch by branch, each on a line of its own, and its last block below. -/
theorem exists_chain {branches : List (Node × Node)} {last? : Option Node}
    (hn : n.IsElseIf branches last?) (hbranches : ∀ branch ∈ branches, IsBranch branch)
    (hlast : ∀ b ∈ last?, b.IsProgram) : ∃ f pieces last,
    ((backend indent preferStruct).convert checker (place preferStruct false) n.toValue).Gives
      (· = f) ∧ pieces ≠ [] ∧
    branches.mapM (branchText (textAt indent preferStruct checker false)) = .ok pieces ∧
    lastText (textAt indent preferStruct checker false) last? = .ok last ∧
    f.Lays ("\nelse ".intercalate pieces ++ last) := by
  induction hn with
  | @alone n c b hk hcondition hbody halternative =>
    obtain ⟨t, ht, hnull, -⟩ := exists_conditional hindent preferStruct hchecker hk hcondition hbody
      (hbranches _ List.mem_cons_self)
    obtain ⟨f, hf, hlays⟩ := hnull halternative
    refine ⟨f, [t], "", hf, List.cons_ne_nil _ _, ?_, rfl, by simpa using hlays⟩
    rw [List.mapM_cons, ht]
    rfl
  | @otherwise n c b last hk hcondition hbody halternative hblock =>
    obtain ⟨t, ht, -, hmore⟩ := exists_conditional hindent preferStruct hchecker hk hcondition hbody
      (hbranches _ List.mem_cons_self)
    obtain ⟨z, hz, hconvert, htext⟩ :=
      exists_body hindent preferStruct hchecker (hlast last rfl) hblock
    have hotherwise : (underElse indent last z).Lays ("else" ++ z.render) := by
      unfold underElse withBody
      rw [if_neg (by rw [hblock]; decide)]
      rw [bodyIndent_block indent hblock]
      exact lays_otherwise hz
    obtain ⟨f, hf, hlays⟩ := hmore last z _ halternative hconvert hotherwise
    refine ⟨f, [t], "\nelse" ++ z.render, hf, List.cons_ne_nil _ _, ?_, ?_, ?_⟩
    · rw [List.mapM_cons, ht]
      rfl
    · rw [lastText, htext]
      rfl
    · have hjoined : t ++ "\n" ++ ("else" ++ z.render) =
          "\nelse ".intercalate [t] ++ ("\nelse" ++ z.render) := by
        rw [← String.toList_inj]
        simp
      exact hjoined ▸ hlays
  | @elseIf n m c b branches last? hk hcondition hbody halternative hm ih =>
    obtain ⟨t, ht, -, hmore⟩ := exists_conditional hindent preferStruct hchecker hk hcondition hbody
      (hbranches _ List.mem_cons_self)
    obtain ⟨z, pieces, last, hz, hne, hpieces, hlasted, hlays⟩ :=
      ih (fun branch hmem => hbranches branch (List.mem_cons_of_mem _ hmem)) hlast
    have helse : (underElse indent m z).Lays
        ("else " ++ ("\nelse ".intercalate pieces ++ last)) := by
      unfold underElse
      rw [if_pos hm.kind]
      exact lays_elseIf hlays
    obtain ⟨f, hf, hlays'⟩ := hmore m z _ halternative hz helse
    refine ⟨f, t :: pieces, last, hf, List.cons_ne_nil _ _, ?_, hlasted, ?_⟩
    · rw [List.mapM_cons, ht, hpieces]
      rfl
    · have hjoined : t ++ "\n" ++ ("else " ++ ("\nelse ".intercalate pieces ++ last)) =
          "\nelse ".intercalate (t :: pieces) ++ last := by
        rw [String.intercalate_cons_of_ne_nil hne, ← String.toList_inj]
        simp
      exact hjoined ▸ hlays'

end

end CSharp

namespace Target

open CSharp (IsBranch branchText lastText)

/-- A chain of conditionals stays flat, however many of them stand inside of one another. Its text
is the first branch, then each further one behind an `else` on a new line, and the last block, if
there is one, below an `else` of its own. A branch is the text of its condition in parentheses and that of
its block, each as it is on its own, so that no line is indented by how deep it stands. -/
theorem text_elseIf {options : List (String × Data)} {o : Options} {checker : Checker}
    {branches : List (Node × Node)} {last? : Option Node} {n : Node}
    (hoptions : ∀ option ∈ options, IsOption option) (ho : Options.ofMembers options = .ok o)
    (hchecker : checker.IsTabled) (hn : n.IsElseIf branches last?)
    (hbranches : ∀ branch ∈ branches, IsBranch branch) (hlast : ∀ b ∈ last?, b.IsProgram) :
    ∃ pieces last, branches.mapM (branchText (text options checker)) = .ok pieces ∧
      lastText (text options checker) last? = .ok last ∧
      text options checker n.toValue = .ok ("\nelse ".intercalate pieces ++ last) := by
  have htext : text options checker = CSharp.textAt o.indent o.preferStruct checker false :=
    funext fun v => text_eq hoptions ho checker v
  obtain ⟨f, pieces, last, ⟨_, hf, rfl⟩, -, hpieces, hlasted, hlays⟩ :=
    CSharp.exists_chain (isWhole_of_ofMembers hoptions ho) o.preferStruct hchecker hn hbranches
      hlast
  rw [htext]
  refine ⟨pieces, last, hpieces, hlasted, ?_⟩
  rw [← htext, text_of_convert hoptions ho hf hlays.plain, hlays.render]

/-- A name on its own. -/
def triedName (s : String) : Node := ⟨.identifier, .unknown, .text s, none, [.text s]⟩

/-- A block without statements. -/
def nothingDone : Node := ⟨.block, .unknown, .text "", none, [.list []]⟩

/-- A conditional on a name with an empty block, and an alternative. -/
def tried (condition : String) (alternative : Value) : Node :=
  ⟨.ifStatement, .unknown, .text "", none,
    [(triedName condition).toValue, nothingDone.toValue, alternative]⟩

/-- A chain of two branches and an alternative is written branch by branch at the margin. -/
theorem text_elseIf_tried :
    (tried "late" (tried "busy" nothingDone.toValue).toValue).IsElseIf
      [(triedName "late", nothingDone), (triedName "busy", nothingDone)] (some nothingDone) ∧
    (∀ branch ∈ [(triedName "late", nothingDone), (triedName "busy", nothingDone)],
      IsBranch branch) ∧
    nothingDone.IsProgram ∧
    text [] .recorded (tried "late" (tried "busy" nothingDone.toValue).toValue).toValue =
      .ok "if (late)\n\x7b\n\x7d\nelse if (busy)\n\x7b\n\x7d\nelse\n\x7b\n\x7d" := by
  have hchain : (tried "late" (tried "busy" nothingDone.toValue).toValue).IsElseIf
      [(triedName "late", nothingDone), (triedName "busy", nothingDone)] (some nothingDone) :=
    .elseIf rfl rfl rfl rfl (.otherwise rfl rfl rfl rfl rfl)
  have hbranches : ∀ branch ∈ [(triedName "late", nothingDone), (triedName "busy", nothingDone)],
      IsBranch branch := by
    simp only [List.forall_mem_cons, List.not_mem_nil, false_implies, implies_true, and_true]
    exact ⟨⟨by unfold Node.IsUnspacedProgram; decide, by decide, by decide, rfl⟩,
      ⟨by unfold Node.IsUnspacedProgram; decide, by decide, by decide, rfl⟩⟩
  have hblock : nothingDone.IsProgram := by decide
  have hnone : ∀ option ∈ ([] : List (String × Data)), IsOption option := by simp
  refine ⟨hchain, hbranches, hblock, ?_⟩
  obtain ⟨pieces, last, hpieces, hlast, htext⟩ := text_elseIf (o := {}) hnone rfl
    (Or.inl rfl : Checker.recorded.IsTabled) hchain hbranches
    (fun b hb => Option.some.inj hb ▸ hblock)
  have hpieces' : [(triedName "late", nothingDone), (triedName "busy", nothingDone)].mapM
      (branchText (text [] .recorded)) =
        .ok ["if (late)\n\x7b\n\x7d", "if (busy)\n\x7b\n\x7d"] := rfl
  have hlast' : lastText (text [] .recorded) (some nothingDone) = .ok "\nelse\n\x7b\n\x7d" := rfl
  obtain rfl := Except.ok.inj (hpieces.symm.trans hpieces')
  obtain rfl := Except.ok.inj (hlast.symm.trans hlast')
  exact htext

end Target

end CodeSample

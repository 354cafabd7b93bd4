import CodeSample.Proofs.Grammar
import CodeSample.Proofs.Indentation
import CodeSample.Target.Locality

/-!
# Where statements begin and end

A statement stands on lines of its own. It is written as if the line had been broken in front of it,
and something stands on the line that it ends on, so that the line is broken behind it. Both hold of
whatever a rule makes of its node if it makes anything of it; a statement may also write nothing.

* `Sink.Inked` says that something stands on the line;
* `Fragment.Settles` says that a fragment leaves such a line, if it writes anything, and
  `Fragment.Opens` that it does not matter whether the line is broken in front of it;
* `Run.Ensures` is what holds of the answer of a run that ends without a fault;
* `CSharp.IsLine` is what the rules for single statements ensure, and `CSharp.PartsSettle` is what
  they need of the statements inside;
* `CSharp.ensures_statement`: statements settle, and all but blocks open.
-/

namespace CodeSample

/-- After a text something stands on the line. -/
def Text.Inks (t : String) : Prop :=
  ∃ before c after, t.toList = before ++ c :: after ∧ isBlank c = false ∧ '\n' ∉ after

namespace Layout

open Text (Inks)

/-! ### Lines that are begun -/

namespace Sink

/-- Something stands on the line. -/
def Inked (s : Sink) : Prop := s.line.toList.all Text.isBlank = false

variable {s : Sink}

/-- Behind a text that inks, something stands on the line. -/
theorem inked_put {t : String} (ht : Inks t) (s : Sink) : (s.put t).Inked := by
  obtain ⟨before, c, after, htext, hc, hafter⟩ := ht
  have hsplit : t = String.ofList before ++ String.ofList (c :: after) := by
    rw [← String.toList_inj, String.toList_append, String.toList_ofList, String.toList_ofList,
      htext]
  have hunbroken : '\n' ∉ (String.ofList (c :: after)).toList := by
    rw [String.toList_ofList, List.mem_cons, not_or]
    refine ⟨?_, hafter⟩
    rintro rfl
    exact absurd hc (by decide)
  unfold Inked
  rw [hsplit, put_append, put_of_not_mem hunbroken, String.toList_append, String.toList_ofList,
    List.all_append, List.all_cons, hc]
  simp

/-- A line on which something stands is broken to come to the start of one. -/
theorem freshLine_of_inked (h : s.Inked) : s.freshLine = s.put "\n" := by
  unfold freshLine
  rw [if_neg (by rw [h]; decide)]

/-- A blank line is the start of a line already. -/
theorem freshLine_of_blank (h : s.line.toList.all Text.isBlank = true) : s.freshLine = s := by
  unfold freshLine
  rw [if_pos h]

/-- At the start of a line, coming to it again changes nothing. -/
theorem freshLine_freshLine (s : Sink) : s.freshLine.freshLine = s.freshLine := by
  by_cases h : s.line.toList.all Text.isBlank = true
  · rw [freshLine_of_blank h, freshLine_of_blank h]
  · rw [freshLine_of_inked (Bool.eq_false_iff.2 h)]
    exact freshLine_of_blank (all_isBlank_margin s.level)

/-- A change of the level by nothing may as well come before the line is broken. -/
theorem freshLine_push_zero (s : Sink) : (s.push 0).freshLine = s.freshLine.push 0 := by
  unfold freshLine
  show (if s.line.toList.all Text.isBlank then s.push 0 else (s.push 0).put "\n") = _
  split
  · rfl
  · rw [put_newline, put_newline]
    simp [push]

end Sink

/-! ### Fragments that are passed over -/

/-- Fragments none of which is there are not written. -/
theorem Sink.writeAll_of_not_isThere {fs : List Fragment} (h : fs.any Fragment.isThere = false)
    (s : Sink) : s.writeAll fs = s := by
  induction fs with
  | nil => rfl
  | cons f fs ih =>
    rw [List.any_cons, Bool.or_eq_false_iff] at h
    cases f <;> first | exact ih h.2 | cases h.1

/-- What is passed over among children writes nothing anywhere else. -/
theorem Sink.write_of_isSilent {f : Fragment} (h : f.isSilent = true) (s : Sink) :
    s.write f = s := by
  cases f with
  | nothing => rfl
  | alien => rfl
  | text t =>
    rw [Fragment.isSilent, beq_iff_eq] at h
    rw [h]
    rfl
  | tree front children style =>
    rw [Fragment.isSilent, Bool.and_eq_true, Bool.and_eq_true, Bool.not_eq_true',
      Bool.not_eq_true'] at h
    have hclosing : style.closing.getD "" = "" := by
      cases hc : style.closing with
      | none => rfl
      | some t => simpa [Fragment.isWritten, hc] using h.2
    -- nothing stands in front, no child is written, and the level is changed by nothing and back
    rw [Sink.write, writeAll_of_not_isThere h.1.1, h.1.2, hclosing, pop_writeChildren,
      writeChildren_of_allSilent h.1.2]
    rfl

/-! ### Fragments that settle -/

namespace Fragment

/-- If a fragment is not passed over, something stands on the line behind it. -/
def Settles (f : Fragment) : Prop := f.isSilent = false → ∀ s : Sink, (s.write f).Inked

variable {s : Sink} {f : Fragment} {front children : List Fragment} {style : Style} {t : String}

/-- What stands on the line stays there. -/
theorem Settles.write (h : f.Settles) (hs : s.Inked) : (s.write f).Inked := by
  by_cases hsilent : f.isSilent = true
  · rwa [Sink.write_of_isSilent hsilent]
  · exact h (Bool.eq_false_iff.2 hsilent) s

/-- Behind children that settle, something stands on the line if it did before or if any of them is
written. -/
theorem inked_writeChildren (h : ∀ f ∈ children, f.Settles) (separator : Option String)
    (first : Bool) (hs : s.Inked ∨ allSilent children = false) :
    (s.writeChildren separator first children).Inked := by
  induction children generalizing s first with
  | nil => exact hs.resolve_right (by decide)
  | cons f fs ih =>
    have hrest (s : Sink) (first : Bool) (hs : s.Inked ∨ allSilent fs = false) :=
      ih (fun g hg => h g (List.mem_cons_of_mem f hg)) first hs
    rw [Sink.writeChildren]
    by_cases hsilent : f.isSilent = true
    · rw [if_pos hsilent]
      rw [allSilent, hsilent, Bool.true_and] at hs
      exact hrest s first hs
    · -- whatever comes next, something stands on the line from here on
      rw [if_neg hsilent]
      exact hrest _ false (Or.inl (h f List.mem_cons_self (Bool.eq_false_iff.2 hsilent) _))

/-- A tree that ends with a text after which something stands on the line. -/
theorem settles_of_closing (hclosing : style.closing = some t) (ht : Inks t) :
    (tree front children style).Settles := by
  intro _ s
  rw [Sink.write, hclosing]
  exact Sink.inked_put ht _

/-- A tree that ends with its children, which settle. If there are none to write, something has to
stand on the line in front of them. -/
theorem settles_of_children (hclosing : style.closing = none)
    (hchildren : ∀ f ∈ children, f.Settles)
    (hfront : ∀ s : Sink, (s.writeAll front).Inked ∨ allSilent children = false) :
    (tree front children style).Settles := by
  intro _ s
  rw [Sink.write, hclosing, Sink.pop_writeChildren]
  exact inked_writeChildren hchildren _ _ (hfront s)

/-- A head that ends with a text, and a body. -/
theorem settles_of_head (hclosing : style.closing = none) (head : List Fragment) (ht : Inks t)
    (hchildren : ∀ f ∈ children, f.Settles) : (tree (head ++ [text t]) children style).Settles := by
  refine settles_of_children hclosing hchildren fun s => Or.inl ?_
  rw [Sink.writeAll_append]
  exact Sink.inked_put ht _

/-- Texts on a line of their own. -/
theorem settles_line (head : List Fragment) (ht : Inks t) : (line (head ++ [text t])).Settles :=
  settles_of_head rfl head ht (by simp)

/-- Children with a separator or without, and nothing in front of them. -/
theorem settles_of_all (hclosing : style.closing = none) (h : ∀ f ∈ children, f.Settles) :
    (tree [] children style).Settles := by
  intro hsilent
  refine settles_of_children hclosing h (fun s => Or.inr ?_) hsilent
  simpa [isSilent, isWritten, hclosing] using hsilent

/-! ### Fragments that open -/

/-- If a fragment is not passed over, the line may as well be broken in front of it, as it is for
one that asks for a line of its own. -/
def Opens (f : Fragment) : Prop := f.isSilent = false → ∀ s : Sink,
  (if f.isFresh then s.freshLine else s).write f = s.freshLine.write f

/-- What asks for a line of its own opens. -/
theorem opens_of_isFresh (h : f.isFresh = true) : f.Opens := by
  intro _ s
  rw [if_pos h]

/-- The first of some children that ask for lines of their own breaks the line. -/
theorem writeChildren_freshLine (h : ∀ f ∈ children, f.isFresh = true)
    (hne : allSilent children = false) (s : Sink) :
    (s.push 0).writeChildren none true children =
      (s.freshLine.push 0).writeChildren none true children := by
  induction children with
  | nil => cases hne
  | cons f fs ih =>
    rw [Sink.writeChildren, Sink.writeChildren]
    by_cases hf : f.isSilent = true
    · rw [allSilent, hf, Bool.true_and] at hne
      rw [if_pos hf, if_pos hf]
      exact ih (fun g hg => h g (List.mem_cons_of_mem f hg)) hne
    · -- it is written behind a break in both cases, since a blank line is not broken again
      rw [if_neg hf, if_neg hf, h f List.mem_cons_self]
      simp only [Option.isNone_none, Bool.and_self, if_true]
      rw [Sink.freshLine_push_zero, Sink.freshLine_push_zero, Sink.freshLine_freshLine]

/-- A block of fragments that ask for lines of their own. -/
theorem opens_block (h : ∀ f ∈ children, f.isFresh = true) : (block children).Opens := by
  intro hsilent s
  have hne : allSilent children = false := by simpa [block, isSilent, isWritten] using hsilent
  show s.write (block children) = s.freshLine.write (block children)
  unfold block
  rw [Sink.write, Sink.write, hne]
  simp only [Sink.writeAll, Bool.false_eq_true, if_false, Indent.columns]
  rw [writeChildren_freshLine h hne]

end Fragment

end Layout

/-! ### What runs ensure -/

namespace Run

variable {α β : Type} {P : α → Prop} {R : β → Prop}

/-- The answer of a run has a property, unless it ends in a fault. -/
def Ensures (r : Run α) (P : α → Prop) : Prop := ∀ a, r.outcome = .ok a → P a

/-- What a run ensures may be weakened. -/
theorem Ensures.mono {Q : α → Prop} {r : Run α} (h : r.Ensures P) (hPQ : ∀ a, P a → Q a) :
    r.Ensures Q := fun a ha => hPQ a (h a ha)

/-- An answer ensures what holds of it. -/
theorem ensures_pure {a : α} (h : P a) : (pure a : Run α).Ensures P := by
  intro b hb
  obtain rfl := Except.ok.inj hb
  exact h

/-- Two runs one after the other ensure what the second does on answers of the first. -/
theorem Ensures.bind {r : Run α} (h : r.Ensures P) {next : α → Run β}
    (hnext : ∀ a, P a → (next a).Ensures R) : (r >>= next).Ensures R := by
  obtain ⟨reports, outcome⟩ := r
  cases outcome with
  | error fault => exact fun _ h => by cases h
  | ok a => exact hnext a (h a rfl)

/-- Nothing is asked of the run that comes first. -/
theorem ensures_bind {r : Run α} {next : α → Run β} (hnext : ∀ a, (next a).Ensures R) :
    (r >>= next).Ensures R :=
  Ensures.bind (P := fun _ => True) (fun _ _ => trivial) fun a _ => hnext a

/-- Going through a list ensures of all answers what each step ensures. -/
theorem ensures_mapM {xs : List α} {f : α → Run β} (h : ∀ x ∈ xs, (f x).Ensures R) :
    (xs.mapM f).Ensures fun ys => ∀ y ∈ ys, R y := by
  induction xs with
  | nil => exact ensures_pure (by simp)
  | cons x xs ih =>
    rw [List.mapM_cons]
    refine (h x List.mem_cons_self).bind fun y hy => ?_
    refine (ih fun z hz => h z (List.mem_cons_of_mem x hz)).bind fun ys hys => ?_
    exact ensures_pure (List.forall_mem_cons.2 ⟨hy, hys⟩)

/-- The answers belong to the items one by one. -/
theorem ensures_mapM_forall₂ {S : α → β → Prop} {xs : List α} {f : α → Run β}
    (h : ∀ x ∈ xs, (f x).Ensures (S x)) : (xs.mapM f).Ensures (List.Forall₂ S xs) := by
  induction xs with
  | nil => exact ensures_pure .nil
  | cons x xs ih =>
    rw [List.mapM_cons]
    refine (h x List.mem_cons_self).bind fun y hy => ?_
    refine (ih fun z hz => h z (List.mem_cons_of_mem x hz)).bind fun ys hys => ?_
    exact ensures_pure (.cons hy hys)

end Run

/-! ### Rules -/

namespace CSharp

open Layout (Fragment Indent)
open Layout.Fragment (Settles Opens settles_line settles_of_head settles_of_closing settles_of_all
  settles_of_children opens_of_isFresh opens_block)

/-- What stands on a line of its own and settles. -/
def IsLine (f : Fragment) : Prop := f.isFresh = true ∧ f.Settles

variable {view : View Flags} {n : Node} {indent : Indent}

/-- A line that ends in a semicolon has something on it. -/
theorem inks_semicolon : Text.Inks ";" := ⟨[], ';', [], rfl, by decide, by decide⟩

/-- The end of a head in parentheses has something on its line. -/
theorem inks_parenthesis : Text.Inks ") " := ⟨[], ')', [' '], rfl, by decide, by decide⟩

/-- A closing brace stands on its line. -/
theorem inks_brace : Text.Inks "\n\x7d" := ⟨['\n'], '\x7d', [], rfl, by decide, by decide⟩

/-- A line that ends in a text which inks is one of its own and settles. -/
theorem isLine_line (head : List Fragment) {t : String} (ht : Text.Inks t) :
    IsLine (.line (head ++ [.text t])) := ⟨rfl, settles_line head ht⟩

/-- Expression statements are lines, ended by a semicolon. -/
theorem ensures_expressionStatement : (expressionStatement view n).Ensures IsLine :=
  Run.ensures_bind fun e => Run.ensures_pure (isLine_line [e] inks_semicolon)

/-- Returns are lines, ended by a semicolon. -/
theorem ensures_returnStatement : (Neutral.returnStatement view n).Ensures IsLine := by
  unfold Neutral.returnStatement
  dsimp only
  split
  · exact Run.ensures_pure
      (isLine_line [] ⟨"return".toList, ';', [], rfl, by decide, by decide⟩)
  · exact Run.ensures_bind fun e =>
      Run.ensures_pure (isLine_line [.text "return ", e] inks_semicolon)

/-- Declarations of variables are lines, ended by a semicolon. -/
theorem ensures_variableDeclaration : (variableDeclaration view n).Ensures IsLine := by
  unfold variableDeclaration
  refine Run.ensures_bind fun declared => Run.ensures_bind fun type => ?_
  refine Run.ensures_bind fun name => ?_
  dsimp only
  split
  · exact Run.ensures_pure (isLine_line [_, .text " ", name] inks_semicolon)
  · exact Run.ensures_bind fun value =>
      Run.ensures_pure (isLine_line [_, .text " ", name, .text " = ", value] inks_semicolon)

/-- A head and a body. -/
theorem isLine_withBody (head : List Fragment) {t : String} (ht : Text.Inks t) {body : Value}
    {rendered : Fragment} (h : rendered.Settles) :
    IsLine (withBody indent (head ++ [.text t]) body rendered) :=
  ⟨rfl, settles_of_head rfl head ht (by simpa using h)⟩

/-- Conditionals are lines of their own that settle if their branches do. -/
theorem ensures_ifStatement
    (hthen : (view.convert (n.get .thenStatement)).Ensures Settles)
    (helse : (view.convert (n.get .elseStatement)).Ensures Settles) :
    (ifStatement indent view n).Ensures IsLine := by
  unfold ifStatement
  refine Run.ensures_bind fun condition => hthen.bind fun consequence hconsequence => ?_
  have hfirst : IsLine (withBody indent ([.text "if (", condition] ++ [.text ") "])
      (n.get .thenStatement) consequence) := isLine_withBody _ inks_parenthesis hconsequence
  dsimp only
  split
  · exact Run.ensures_pure hfirst
  refine helse.bind fun alternative halternative => Run.ensures_pure ⟨rfl, ?_⟩
  have helse : Text.Inks "else " := ⟨"els".toList, 'e', [' '], rfl, by decide, by decide⟩
  refine settles_of_all rfl (List.forall_mem_cons.2 ⟨hfirst.2, ?_⟩)
  refine List.forall_mem_singleton.2 ?_
  split
  · -- on the line of its `else`
    refine settles_of_children rfl (by simp) fun s => Or.inl ?_
    exact halternative.write (Layout.Sink.inked_put helse s)
  · exact (isLine_withBody [] helse halternative).2

/-- Loops are lines of their own that settle if their bodies do. -/
theorem ensures_forOfStatement (hbody : (view.convert (n.get .statement)).Ensures Settles) :
    (forOfStatement indent view n).Ensures IsLine := by
  unfold forOfStatement
  refine Run.ensures_bind fun name => Run.ensures_bind fun expression => ?_
  refine hbody.bind fun body hsettles => Run.ensures_pure ?_
  exact isLine_withBody [.text "foreach (var ", _, .text " in ", expression] inks_parenthesis
    hsettles

/-- Functions and methods are lines of their own that settle if their bodies do. -/
theorem ensures_function (hbody : (view.convert (n.get .body)).Ensures Settles) :
    (function view n).Ensures IsLine := by
  unfold function signature
  refine Run.ensures_bind fun name => Run.ensures_bind fun type => ?_
  refine Run.ensures_bind fun parameters => ?_
  dsimp only
  split
  · exact Run.ensures_pure (isLine_line
      [.text "public ", _, .text " ", name, .text "(", .separated ", " parameters]
      ⟨")".toList, ';', [], rfl, by decide, by decide⟩)
  · refine hbody.bind fun body hsettles => Run.ensures_pure ⟨rfl, ?_⟩
    exact settles_of_head rfl
      [.text "public ", _, .text " ", name, .text "(", .separated ", " parameters]
      inks_parenthesis (List.forall_mem_singleton.2 hsettles)

/-- Classes and interfaces are lines of their own, ended by a closing brace. -/
theorem ensures_declaration {word : String} {inside : View Flags} :
    (declaration indent word view inside n).Ensures IsLine := by
  unfold declaration
  refine Run.ensures_bind fun name => Run.ensures_bind fun extended => ?_
  refine Run.ensures_bind fun members => Run.ensures_pure ⟨rfl, ?_⟩
  exact settles_of_closing rfl inks_brace

/-- Interfaces of both sorts are lines of their own, ended by a closing brace. -/
theorem ensures_interface :
    (Dispatch.interface (dataInterface indent) (behaviourInterface indent) view n).Ensures
      IsLine := by
  unfold Dispatch.interface
  refine Run.ensures_bind fun data => ?_
  split
  · exact ensures_declaration
  · exact ensures_declaration

/-- Blocks settle on their closing brace. They ask for no line of their own, but start with a line
break. -/
theorem ensures_block : (blockStatement indent view n).Ensures Settles := by
  unfold blockStatement
  refine Run.ensures_bind fun statements => Run.ensures_pure ?_
  exact settles_of_closing rfl inks_brace

/-! ### Statements -/

variable {preferStruct : Data} {checker : Checker}

/-- A node is rendered by the rule for its kind. -/
theorem convert_of_rule {c : Flags} {rule : Rule Flags} (h : rule? indent n.kind = some rule) :
    (backend indent preferStruct).convert checker c n.toValue =
      rule ((backend indent preferStruct).view checker c) n := by
  rw [Backend.convert_node (isLocal indent preferStruct), visit_of_rule h]

/-- The declarations of a list stand on lines of their own. -/
theorem ensures_declarationList (hn : n.isShaped .declared = true)
    (hk : n.kind = .variableDeclarationList) (c : Flags) :
    ((backend indent preferStruct).convert checker c n.toValue).Ensures fun f =>
      f.Settles ∧ f.Opens := by
  have hcontent : Grammar.declared.content? n.kind .declarations =
      some (.many [.variableDeclaration]) := by
    rw [hk]
    rfl
  obtain ⟨vs, hvs, hall⟩ := Node.many_of_isShaped hn hcontent
  have hrule : rule? indent n.kind = some (Neutral.blockOf .declarations) := by
    rw [hk]
    rfl
  rw [convert_of_rule hrule]
  unfold Neutral.blockOf View.convertAll
  rw [hvs]
  have hlines : (vs.mapM ((backend indent preferStruct).view checker c).convert).Ensures
      fun fs => ∀ f ∈ fs, IsLine f := by
    refine Run.ensures_mapM fun v hv => ?_
    obtain ⟨m, rfl, hm⟩ := hall v hv
    have hrule : rule? indent m.kind = some variableDeclaration := by
      rw [List.mem_singleton.1 hm]
      rfl
    show ((backend indent preferStruct).convert checker c m.toValue).Ensures IsLine
    rw [convert_of_rule hrule]
    exact ensures_variableDeclaration
  refine hlines.bind fun fs hfs => Run.ensures_pure ⟨?_, ?_⟩
  · exact settles_of_all rfl fun f hf => (hfs f hf).2
  · exact opens_block fun f hf => (hfs f hf).1

/-- Declarations of variables as a statement. -/
theorem ensures_variableStatement (hn : n.toValue.all (·.isShaped .declared) = true)
    (hk : n.kind = .variableStatement) (c : Flags) :
    ((backend indent preferStruct).convert checker c n.toValue).Ensures fun f =>
      f.Settles ∧ f.Opens := by
  have hcontent : Grammar.declared.content? n.kind .declarationList =
      some (.one [.variableDeclarationList]) := by
    rw [hk]
    rfl
  have hrule : rule? indent n.kind = some (Neutral.through .declarationList) := by
    rw [hk]
    rfl
  obtain ⟨m, hm, hshaped, hkind⟩ := Node.one_of_all (fun _ h => h) hn hcontent
  rw [convert_of_rule hrule]
  show ((backend indent preferStruct).convert checker c (n.get .declarationList)).Ensures _
  rw [hm]
  exact ensures_declarationList (Node.isShaped_of_all (fun _ h => h) hshaped)
    (List.mem_singleton.1 hkind) c

/-- The statements in the fields of a node settle. -/
def PartsSettle (indent : Indent) (preferStruct : Data) (checker : Checker) (c : Flags) (n : Node) :
    Prop :=
  ∀ (field : Field) (m : Node), n.get field = m.toValue →
    m.toValue.all (·.isShaped .declared) = true → m.kind ∈ Kind.statements →
      ((backend indent preferStruct).convert checker c m.toValue).Ensures Settles

section

variable {c : Flags} {field : Field} {kinds : List Kind}
variable (h : PartsSettle indent preferStruct checker c n)
variable (hn : n.toValue.all (·.isShaped .declared) = true)
include h hn

/-- The statement in a field settles. -/
theorem PartsSettle.one (hf : Grammar.declared.content? n.kind field = some (.one kinds))
    (hkinds : ∀ k ∈ kinds, k ∈ Kind.statements) :
    ((backend indent preferStruct).convert checker c (n.get field)).Ensures Settles := by
  obtain ⟨m, hm, hshaped, hkind⟩ := Node.one_of_all (fun _ h => h) hn hf
  rw [hm]
  exact h field m hm hshaped (hkinds _ hkind)

/-- The statement in a field that may be null settles; null writes nothing. -/
theorem PartsSettle.maybe (hf : Grammar.declared.content? n.kind field = some (.maybe kinds))
    (hkinds : ∀ k ∈ kinds, k ∈ Kind.statements) :
    ((backend indent preferStruct).convert checker c (n.get field)).Ensures Settles := by
  rcases Node.maybe_of_all (fun _ h => h) hn hf with hnull | ⟨m, hm, hshaped, hkind⟩
  · -- nothing is written, so nothing has to stand on the line
    rw [hnull]
    exact Run.ensures_pure fun h => by cases h
  · rw [hm]
    exact h field m hm hshaped (hkinds _ hkind)

/-- What the rule for a statement that is no block and declares no variables makes of it. -/
theorem PartsSettle.ensures_isLine (hk : n.kind ∈ Kind.statements)
    (hblock : n.kind ≠ .block) (hvariable : n.kind ≠ .variableStatement) :
    ((backend indent preferStruct).convert checker c n.toValue).Ensures IsLine := by
  have hrule {rule : Rule Flags} (hrule : rule? indent n.kind = some rule)
      (h : (rule ((backend indent preferStruct).view checker c) n).Ensures IsLine) :
      ((backend indent preferStruct).convert checker c n.toValue).Ensures IsLine := by
    rwa [convert_of_rule hrule]
  simp only [Kind.statements, List.mem_cons, List.not_mem_nil, or_false] at hk
  rcases hk with hk | hk | hk | hk | hk | hk | hk | hk | hk
  · exact absurd hk hblock
  · exact hrule (by rw [hk]; rfl) ensures_expressionStatement
  · exact absurd hk hvariable
  · exact hrule (by rw [hk]; rfl) (ensures_ifStatement
      (h.one hn (by rw [hk]; rfl) fun _ h => h) (h.maybe hn (by rw [hk]; rfl) fun _ h => h))
  · exact hrule (by rw [hk]; rfl) (ensures_forOfStatement
      (h.one hn (by rw [hk]; rfl) fun _ h => h))
  · exact hrule (by rw [hk]; rfl) ensures_returnStatement
  · exact hrule (by rw [hk]; rfl) (ensures_function (h.maybe hn (by rw [hk]; rfl) (by decide)))
  · exact hrule (by rw [hk]; rfl) (Run.ensures_bind fun _ => ensures_declaration)
  · exact hrule (by rw [hk]; rfl) ensures_interface

end

/-- A statement settles, and it opens if it is no block. -/
theorem ensures_statement {n : Node} (hn : n.toValue.all (·.isShaped .declared) = true)
    (hk : n.kind ∈ Kind.statements) (c : Flags) :
    ((backend indent preferStruct).convert checker c n.toValue).Ensures fun f =>
      f.Settles ∧ (n.kind ≠ .block → f.Opens) := by
  -- bodies and alternatives are less deep than the statement that they belong to
  induction hdepth : n.toValue.depth using Nat.strongRecOn generalizing n c with
  | ind depth ih =>
    have hparts : PartsSettle indent preferStruct checker c n := by
      intro field m hm hshaped hkind
      refine Run.Ensures.mono (ih m.toValue.depth ?_ hshaped hkind c rfl) fun f hf => hf.1
      rw [← hdepth, ← hm]
      exact Value.depth_get_lt n field
    by_cases hblock : n.kind = .block
    · have hrule : rule? indent n.kind = some (blockStatement indent) := by
        rw [hblock]
        rfl
      rw [convert_of_rule hrule]
      exact ensures_block.mono fun f hf => ⟨hf, fun h => absurd hblock h⟩
    by_cases hvariable : n.kind = .variableStatement
    · exact (ensures_variableStatement hn hvariable c).mono fun f hf => ⟨hf.1, fun _ => hf.2⟩
    · exact (hparts.ensures_isLine hn hk hblock hvariable).mono fun f hf =>
        ⟨hf.2, fun _ => opens_of_isFresh hf.1⟩

end CSharp

end CodeSample

import CodeSample.Proofs.ShiftedOutput
import CodeSample.Proofs.SinkRuns
import CodeSample.Proofs.StatementRules
import CodeSample.Proofs.Totality

/-!
# Lists of statements

Statements are rendered one by one, and what comes out is put together line by line. A file is its
statements under one another, and a block is the same in braces, moved to the right.

* `Fragment.raw` is what a fragment writes before blanks at line ends are dropped;
* `Fragment.IsPart` are the fragments of statements; `render_block` and `render_braces` are the
  texts of a list of them, under one another and in braces;
* `CSharp.exists_parts` takes the renderings of statements to such fragments;
* `Target.render_statements` is what this means for files and blocks.
-/

namespace CodeSample

namespace Layout

open Text (padBreaks indentLines)

namespace Fragment

/-! ### What is written -/

/-- What a fragment writes into an empty sink, with blanks at line ends. -/
def raw (f : Fragment) : List Char := (Sink.write {} f).written.toList

/-- A finished text is what was written without the blanks at line ends. -/
theorem toList_render (f : Fragment) : f.render.toList = Sink.stripLineEnds f.raw :=
  String.toList_ofList

/-- A fragment that can be put under others and in braces. -/
structure IsPart (f : Fragment) : Prop where
  settles : f.Settles
  opens : f.Opens
  inward : f.Alike Indent.Inward f

/-- The fragments that are not passed over. -/
def spoken (fs : List Fragment) : List Fragment := fs.filter (!·.isSilent)

/-- Of fragments that are all passed over, none is left. -/
theorem spoken_of_allSilent {fs : List Fragment} (h : allSilent fs = true) : spoken fs = [] := by
  induction fs with
  | nil => rfl
  | cons f fs ih =>
    rw [allSilent, Bool.and_eq_true] at h
    exact (List.filter_cons_of_neg (by simp [h.1])).trans (ih h.2)

/-- A fragment that is passed over is left out. -/
theorem spoken_cons_of_isSilent {f : Fragment} (h : f.isSilent = true) (fs : List Fragment) :
    spoken (f :: fs) = spoken fs :=
  List.filter_cons_of_neg (by simp [h])

/-- Any other fragment stays. -/
theorem spoken_cons {f : Fragment} (h : f.isSilent = false) (fs : List Fragment) :
    spoken (f :: fs) = f :: spoken fs :=
  List.filter_cons_of_pos (by simp [h])

/-- What settles writes a text, unless it is passed over. -/
theorem render_ne_empty_iff {f : Fragment} (h : f.Settles) :
    f.render ≠ "" ↔ f.isSilent = false := by
  constructor
  · intro hne
    rw [Bool.eq_false_iff]
    intro hsilent
    apply hne
    unfold render
    rw [Sink.write_of_isSilent hsilent]
    rfl
  · intro hsilent hempty
    have hinked := h hsilent {}
    have hline : (Sink.write {} f).IsOnLine := Sink.IsOnLine.write (s := {}) rfl f
    unfold Sink.Inked at hinked
    rw [hline, List.all_eq_false] at hinked
    obtain ⟨c, hc, hblank⟩ := hinked
    have hmem : c ∈ f.raw := (List.rtakeWhile_suffix _ _).subset hc
    have hink : Text.isInk c = true := by
      unfold Text.isInk
      simp only [Bool.and_eq_true, bne_iff_ne]
      refine ⟨⟨?_, ?_⟩, ?_⟩ <;>
      · rintro rfl
        exact hblank (by decide)
    -- a character with ink is not dropped at the end of a line
    have hkept : c ∈ Text.inked (Sink.stripLineEnds f.raw) := by
      rw [Text.inked_stripLineEnds]
      exact List.mem_filter.2 ⟨hmem, hink⟩
    rw [← toList_render, hempty] at hkept
    cases hkept

end Fragment

namespace Sink

variable {k : Nat} {s : Sink} {f : Fragment} {fs : List Fragment}

/-- On a blank line, a fragment writes what it writes into an empty sink, moved to the right. -/
theorem written_write (hlevel : s.level = k) (hblank : s.line.toList.all Text.isBlank = true)
    (hf : f.Alike Indent.Inward f) :
    (s.write f).written.toList = s.written.toList ++ padBreaks k f.raw := by
  have hstart : s.Shifted k s.written.toList [] {} := by
    refine ⟨?_, Int.le_refl 0, hblank, [], rfl, (List.append_nil _).symm⟩
    rw [hlevel]
    exact (Int.zero_add _).symm
  obtain ⟨added, hadded, hshifted⟩ := ((Simulation.shifted k _ _).write hf hstart).written
  rw [hshifted, Fragment.raw, hadded]
  rfl

/-- Statements below a line on which something stands. -/
theorem written_writeChildren (hlevel : s.level = k) (hs : s.Inked)
    (hfs : ∀ f ∈ fs, f.IsPart) (first : Bool) :
    (s.writeChildren none first fs).written.toList = s.written.toList ++
      ((Fragment.spoken fs).map fun f => List.replicate k ' ' ++ padBreaks k f.raw).flatMap
        ('\n' :: ·) := by
  induction fs generalizing s first with
  | nil => exact (List.append_nil _).symm
  | cons f fs ih =>
    rw [List.forall_mem_cons] at hfs
    rw [writeChildren]
    by_cases hsilent : f.isSilent = true
    · rw [if_pos hsilent, Fragment.spoken_cons_of_isSilent hsilent]
      exact ih hlevel hs hfs.2 first
    rw [if_neg hsilent]
    rw [Bool.not_eq_true] at hsilent
    -- the line is broken, and the new one is blank
    have hput : (if first then s else s.put ((none : Option String).getD "")) = s := by
      cases first <;> rfl
    have hbroken : (s.put "\n").written.toList =
        s.written.toList ++ '\n' :: List.replicate k ' ' := by
      rw [put_newline, hlevel, String.toList_append, String.toList_push, toList_margin]
      simp
    have hblank : (s.put "\n").line.toList.all Text.isBlank = true := all_isBlank_margin s.level
    have hlevel' : (s.put "\n").level = k := (frame_put s "\n").1.trans hlevel
    have hwritten := written_write hlevel' hblank hfs.1.inward
    dsimp only
    rw [hput]
    simp only [Option.isNone_none, Bool.true_and]
    rw [hfs.1.opens hsilent s, freshLine_of_inked hs,
      ih ((frame_write _ f).1.trans hlevel') (hfs.1.settles hsilent _) hfs.2 false, hwritten,
      hbroken, Fragment.spoken_cons hsilent]
    simp

/-- Statements in an empty sink. -/
theorem written_writeChildren_empty (hlevel : s.level = 0) (hs : s.written = "")
    (hblank : s.line.toList.all Text.isBlank = true) (hfs : ∀ f ∈ fs, f.IsPart) :
    (s.writeChildren none true fs).written.toList =
      ['\n'].intercalate ((Fragment.spoken fs).map Fragment.raw) := by
  induction fs with
  | nil =>
    rw [writeChildren, hs]
    rfl
  | cons f fs ih =>
    rw [List.forall_mem_cons] at hfs
    rw [writeChildren]
    by_cases hsilent : f.isSilent = true
    · rw [if_pos hsilent, Fragment.spoken_cons_of_isSilent hsilent]
      exact ih hfs.2
    rw [if_neg hsilent]
    rw [Bool.not_eq_true] at hsilent
    have hwritten := written_write (k := 0) hlevel hblank hfs.1.inward
    have hfirst : (if f.isFresh then s.freshLine else s) = s := by
      rw [freshLine_of_blank hblank, ite_self]
    simp only [Option.isNone_none, Bool.true_and, if_true]
    rw [hfirst, written_writeChildren (k := 0) ((frame_write s f).1.trans hlevel)
      (hfs.1.settles hsilent s) hfs.2, hwritten, hs, Fragment.spoken_cons hsilent, List.map_cons,
      Text.intercalate_newline_cons, Text.padBreaks_zero]
    simp only [Text.padBreaks_zero]
    rfl

/-- At level zero, a closing brace is written at the start of a line. -/
theorem written_put_brace (h : s.level = 0) :
    (s.put "\n\x7d").written.toList = s.written.toList ++ ['\n', '\x7d'] := by
  show ((s.put "\n").put "\x7d").written.toList = _
  rw [put_of_not_mem (by decide), put_newline, h]
  simp [margin]

end Sink

namespace Fragment

/-! ### The texts of lists -/

variable {k : Nat} {fs : List Fragment}

/-- Finished texts that are not empty are those of the fragments that are not passed over. -/
theorem map_render_spoken (hfs : ∀ f ∈ fs, f.IsPart) :
    (spoken fs).map render = (fs.map render).filter (· != "") := by
  rw [List.filter_map]
  refine congrArg _ (List.filter_congr fun f hf => ?_)
  have hiff := render_ne_empty_iff (hfs f hf).settles
  cases hsilent : f.isSilent <;> simp [hsilent] at hiff ⊢ <;> exact hiff

/-- The text of statements under one another. -/
theorem render_block (hfs : ∀ f ∈ fs, f.IsPart) :
    (block fs).render = "\n".intercalate ((fs.map render).filter (· != "")) := by
  have hraw : (block fs).raw = ['\n'].intercalate ((spoken fs).map raw) := by
    have hzero : (if allSilent fs then 0 else ({} : Style).indent.columns) = 0 := ite_self 0
    unfold raw block
    rw [Sink.write, hzero, Sink.pop_writeChildren]
    exact Sink.written_writeChildren_empty rfl rfl rfl hfs
  rw [← String.toList_inj, toList_render, hraw, String.toList_intercalate, ← map_render_spoken hfs,
    List.map_map]
  cases spoken fs with
  | nil => rfl
  | cons f fs =>
    rw [List.map_cons, Text.intercalate_newline_cons, Text.stripLineEnds_breaks, List.map_map,
      List.map_cons]
    simp only [Function.comp_def, toList_render]
    exact (Text.intercalate_newline_cons _ _).symm

/-- The text of statements in braces. -/
theorem render_braces (hfs : ∀ f ∈ fs, f.IsPart) :
    (tree [text "\n\x7b"] fs { indent := .blanks k, closing := some "\n\x7d" }).render =
      "\n\x7b" ++ String.join (((fs.map render).filter (· != "")).map fun t =>
        "\n" ++ indentLines k t) ++ "\n\x7d" := by
  have hopening : (Sink.put {} "\n\x7b").written.toList = ['\n', '\x7b'] := by decide
  have hinside : (((Sink.put {} "\n\x7b").push (if allSilent fs then 0 else k)).writeChildren none
      true fs).written.toList = ['\n', '\x7b'] ++ ((spoken fs).map fun f =>
        List.replicate k ' ' ++ padBreaks k f.raw).flatMap ('\n' :: ·) := by
    by_cases hsilent : allSilent fs = true
    · rw [Sink.writeChildren_of_allSilent hsilent, spoken_of_allSilent hsilent]
      exact hopening
    · have hinked : ((Sink.put {} "\n\x7b").push k).Inked :=
        Sink.inked_put (t := "\n\x7b") ⟨['\n'], '\x7b', [], rfl, by decide, by decide⟩ {}
      rw [if_neg hsilent, Sink.written_writeChildren (Int.zero_add _) hinked hfs true]
      exact congrArg (· ++ _) hopening
  have hraw : (tree [text "\n\x7b"] fs { indent := .blanks k, closing := some "\n\x7d" }).raw =
      (['\n', '\x7b'] ++ ((spoken fs).map fun f => List.replicate k ' ' ++
        padBreaks k f.raw).flatMap ('\n' :: ·)) ++ '\n' :: ['\x7d'] := by
    unfold raw
    rw [Sink.write, Sink.pop_writeChildren]
    exact (Sink.written_put_brace rfl).trans (congrArg (· ++ ['\n', '\x7d']) hinside)
  have hline (f : Fragment) : Sink.stripLineEnds (List.replicate k ' ' ++ padBreaks k f.raw) =
      (indentLines k f.render).toList := by
    rw [Text.stripLineEnds_padBreaks, ← toList_render, String.ofList_toList]
  rw [← String.toList_inj, toList_render, hraw, Text.stripLineEnds_newline,
    Text.stripLineEnds_breaks, ← map_render_spoken hfs, String.toList_append,
    String.toList_append, String.toList_join]
  simp only [List.map_map, List.flatMap_map, Function.comp_def, hline, String.toList_append]
  rfl

end Fragment

end Layout

/-! ### Renderings -/

open Layout (Fragment Indent)

/-- A rendering is a fragment that is laid out, with what was reported on the way. -/
theorem Backend.render_eq_ok_iff {C : Type} {backend : Backend C} {checker : Checker}
    {root : Value} {r : Rendering} : backend.render checker root = .ok r ↔
      ∃ f, backend.convert checker backend.initial root = ⟨r.diagnostics, .ok f⟩ ∧
        f.output = .ok r.text := by
  unfold render
  generalize backend.convert checker backend.initial root = run
  obtain ⟨reports, outcome⟩ := run
  obtain ⟨text, diagnostics⟩ := r
  cases outcome with
  | error fault =>
    constructor
    · intro h
      cases h
    · rintro ⟨f, h, -⟩
      cases h
  | ok f =>
    show (f.output >>= fun text => pure (⟨text, reports⟩ : Rendering)) = _ ↔ _
    constructor
    · intro h
      cases houtput : f.output with
      | error fault =>
        rw [houtput] at h
        cases h
      | ok text =>
        rw [houtput] at h
        cases h
        exact ⟨f, rfl, houtput⟩
    · rintro ⟨f, h, houtput⟩
      cases h
      rw [houtput]
      rfl

/-- The texts that are not empty. -/
def Rendering.texts (rs : List Rendering) : List String := (rs.map text).filter (· != "")

/-- A statement that is no block. -/
structure Node.IsListed (n : Node) : Prop where
  shaped : n.toValue.all (·.isShaped .declared) = true
  statement : n.kind ∈ Kind.statements
  not_block : n.kind ≠ .block

/-- Every statement of the language but a block is listed. -/
theorem Node.IsProgram.isListed {n : Node} (h : n.IsProgram) (hkind : n.kind ∈ Kind.statements)
    (hblock : n.kind ≠ .block) : n.IsListed :=
  ⟨Value.all_mono (fun _ => isShaped_declared) h, hkind, hblock⟩

namespace CSharp

variable {k : Nat} {preferStruct : Data} {checker : Checker} {ns : List Node} {rs : List Rendering}

/-- What a statement is rendered to is the text of a fragment that can be put under others. -/
theorem exists_part {n : Node} {r : Rendering} (hn : n.IsListed)
    (h : (backend (.blanks k) preferStruct).render checker n.toValue = .ok r) :
    ∃ f, (backend (.blanks k) preferStruct).convert checker
        (backend (.blanks k) preferStruct).initial n.toValue = ⟨r.diagnostics, .ok f⟩ ∧
      f.IsPart ∧ f.isPlain = true ∧ f.render = r.text := by
  obtain ⟨f, hconvert, houtput⟩ := Backend.render_eq_ok_iff.1 h
  obtain ⟨-, htally⟩ := convert_upTo (D := Indent.Inward) (Layout.Indent.inward_blanks 0)
    (Layout.Indent.inward_blanks k) preferStruct checker
    (backend (.blanks k) preferStruct).initial n.toValue
  have hstatement : ((backend (.blanks k) preferStruct).convert checker
      (backend (.blanks k) preferStruct).initial n.toValue).Ensures fun f =>
        f.Settles ∧ (n.kind ≠ .block → f.Opens) := ensures_statement hn.shaped hn.statement _
  rw [hconvert] at htally hstatement
  obtain ⟨hsettles, hopens⟩ := hstatement f rfl
  cases htally with
  | ok halike =>
    rw [halike.output_eq fun _ _ hi => hi.isWhole] at houtput
    split at houtput
    · exact ⟨f, hconvert, ⟨hsettles, hopens hn.not_block, halike⟩, ‹_›, Except.ok.inj houtput⟩
    · cases houtput

/-- The statements of a list are rendered one after the other. -/
theorem exists_parts (hns : ∀ n ∈ ns, n.IsListed)
    (h : List.Forall₂ (fun n r =>
      (backend (.blanks k) preferStruct).render checker n.toValue = .ok r) ns rs) :
    ∃ fs, ((backend (.blanks k) preferStruct).view checker
        (backend (.blanks k) preferStruct).initial).convertAll (.list (ns.map Node.toValue)) =
          ⟨rs.flatMap Rendering.diagnostics, .ok fs⟩ ∧
      (∀ f ∈ fs, f.IsPart) ∧ Layout.Fragment.allPlain fs = true ∧
      fs.map Fragment.render = rs.map Rendering.text := by
  unfold View.convertAll
  show ∃ fs, ((ns.map Node.toValue).mapM _ : Run (List Fragment)) = _ ∧ _
  induction h with
  | nil => exact ⟨[], rfl, by simp, rfl, rfl⟩
  | @cons n r ns rs hr _ ih =>
    rw [List.forall_mem_cons] at hns
    obtain ⟨f, hconvert, hpart, hplain, htext⟩ := exists_part hns.1 hr
    obtain ⟨fs, hmapM, hparts, hplains, htexts⟩ := ih hns.2
    refine ⟨f :: fs, ?_, List.forall_mem_cons.2 ⟨hpart, hparts⟩, ?_, ?_⟩
    · rw [List.map_cons, List.mapM_cons, hmapM]
      show ((backend (.blanks k) preferStruct).convert checker
        (backend (.blanks k) preferStruct).initial n.toValue >>= _) = _
      rw [hconvert]
      simp
    · rw [Layout.Fragment.allPlain, hplain, hplains]
      rfl
    · rw [List.map_cons, List.map_cons, htext, htexts]

/-- What a rule makes of a list of statements which are rendered. -/
theorem exists_wrapped (hns : ∀ n ∈ ns, n.IsListed)
    (h : List.Forall₂ (fun n r =>
      (backend (.blanks k) preferStruct).render checker n.toValue = .ok r) ns rs)
    {n : Node} {wrap : List Fragment → Fragment}
    (hrule : rule? (.blanks k) n.kind =
      some fun view n => return wrap (← view.convertAll (n.get .statements)))
    (hn : n.get .statements = .list (ns.map Node.toValue))
    (hwrap : ∀ fs, Layout.Fragment.allPlain fs = true → (wrap fs).isPlain = true) :
    ∃ fs, (∀ f ∈ fs, f.IsPart) ∧ fs.map Fragment.render = rs.map Rendering.text ∧
      (backend (.blanks k) preferStruct).render checker n.toValue =
        .ok ⟨(wrap fs).render, rs.flatMap Rendering.diagnostics⟩ := by
  obtain ⟨fs, hall, hparts, hplain, htexts⟩ := exists_parts hns h
  refine ⟨fs, hparts, htexts, Backend.render_eq_ok_iff.2 ⟨wrap fs, ?_, ?_⟩⟩
  · rw [convert_of_rule hrule, hn, hall]
    simp
  · exact Fragment.output_of_isPlain (hwrap fs hplain)

/-- The rendering of a file whose statements are rendered. -/
theorem render_sourceFile (hns : ∀ n ∈ ns, n.IsListed)
    (h : List.Forall₂ (fun n r =>
      (backend (.blanks k) preferStruct).render checker n.toValue = .ok r) ns rs)
    {file : Node} (hkind : file.kind = .sourceFile)
    (hfile : file.get .statements = .list (ns.map Node.toValue)) :
    (backend (.blanks k) preferStruct).render checker file.toValue =
      .ok ⟨"\n".intercalate (Rendering.texts rs), rs.flatMap Rendering.diagnostics⟩ := by
  have hplain (fs : List Fragment) (hfs : Layout.Fragment.allPlain fs = true) :
      (Fragment.block fs).isPlain = true := by
    rw [Fragment.block, Fragment.isPlain, hfs]
    rfl
  obtain ⟨fs, hparts, htexts, hrender⟩ := exists_wrapped hns h (by rw [hkind]; rfl) hfile hplain
  rw [hrender, Layout.Fragment.render_block hparts, htexts]
  rfl

/-- The rendering of a block whose statements are rendered. -/
theorem render_blockStatement (hns : ∀ n ∈ ns, n.IsListed)
    (h : List.Forall₂ (fun n r =>
      (backend (.blanks k) preferStruct).render checker n.toValue = .ok r) ns rs)
    {block : Node} (hkind : block.kind = .block)
    (hblock : block.get .statements = .list (ns.map Node.toValue)) :
    (backend (.blanks k) preferStruct).render checker block.toValue =
      .ok ⟨"\n\x7b" ++ String.join ((Rendering.texts rs).map fun t =>
        "\n" ++ Text.indentLines k t) ++ "\n\x7d", rs.flatMap Rendering.diagnostics⟩ := by
  have hplain (fs : List Fragment) (hfs : Layout.Fragment.allPlain fs = true) :
      (Fragment.tree [.text "\n\x7b"] fs
        { indent := .blanks k, closing := some "\n\x7d" }).isPlain = true := by
    rw [Fragment.isPlain, hfs]
    rfl
  obtain ⟨fs, hparts, htexts, hrender⟩ := exists_wrapped hns h (by rw [hkind]; rfl) hblock hplain
  rw [hrender, Layout.Fragment.render_braces hparts, htexts]
  rfl

/-- The statements of a program are rendered. -/
theorem exists_renderings (hns : ∀ n ∈ ns, n.IsListed) (hprograms : ∀ n ∈ ns, n.IsProgram)
    (hchecker : checker.IsTabled) : ∃ rs : List Rendering, List.Forall₂ (fun n r =>
      (backend (.blanks k) preferStruct).render checker n.toValue = .ok r) ns rs := by
  have hinner : ∀ kind ∈ Kind.statements, kind ∉ Kind.inner := by decide
  induction ns with
  | nil => exact ⟨[], .nil⟩
  | cons n ns ih =>
    rw [List.forall_mem_cons] at hns hprograms
    obtain ⟨rs, hrs⟩ := ih hns.2 hprograms.2
    obtain ⟨f, -, -, hrender⟩ := finishes (show (Indent.blanks k).isWhole = true from rfl)
      preferStruct ⟨hprograms.1, hinner _ hns.1.statement⟩ hchecker
    exact ⟨_ :: rs, .cons hrender hrs⟩

end CSharp

/-- Lists of statements are rendered statement by statement. Let each of some statements, of which
none is a block, be rendered by itself, with lines in braces indented by `k` blanks. Then a file of
these statements is rendered to their texts under one another, without those that are empty, and a
block to the same texts in braces, each on lines of its own with `k` blanks in front of those that
are not empty. The diagnostics are those of the statements, one after the other. If the statements
are parts of a program, and the checker answers from what is recorded or from tables, each of them
is rendered. -/
theorem Target.render_statements {options : List (String × Data)} {o : Options} {k : Nat}
    (hoptions : ∀ option ∈ options, IsOption option)
    (ho : Options.ofMembers options = .ok o) (hindent : o.indent = .blanks k) (checker : Checker)
    {ns : List Node} (hns : ∀ n ∈ ns, n.IsListed) (file block : Node)
    (hfile : file.kind = .sourceFile)
    (hfiled : file.get .statements = .list (ns.map Node.toValue)) (hblock : block.kind = .block)
    (hblocked : block.get .statements = .list (ns.map Node.toValue)) :
    (∀ rs : List Rendering,
      List.Forall₂ (fun n r => render (.text CSharp.name) options checker n.toValue = .ok r) ns rs →
      render (.text CSharp.name) options checker file.toValue =
        .ok ⟨"\n".intercalate (Rendering.texts rs), rs.flatMap Rendering.diagnostics⟩ ∧
      render (.text CSharp.name) options checker block.toValue =
        .ok ⟨"\n\x7b" ++ String.join ((Rendering.texts rs).map fun t =>
          "\n" ++ Text.indentLines k t) ++ "\n\x7d", rs.flatMap Rendering.diagnostics⟩) ∧
    ((∀ n ∈ ns, n.IsProgram) → checker.IsTabled → ∃ rs : List Rendering,
      List.Forall₂ (fun n r =>
        render (.text CSharp.name) options checker n.toValue = .ok r) ns rs) := by
  have hrender (n : Node) : render (.text CSharp.name) options checker n.toValue =
      (CSharp.backend (.blanks k) o.preferStruct).render checker n.toValue := by
    rw [render_eq hoptions ho, hindent]
  simp only [hrender]
  refine ⟨fun rs hrs => ⟨CSharp.render_sourceFile hns hrs hfile hfiled,
    CSharp.render_blockStatement hns hrs hblock hblocked⟩, fun hprograms hchecker => ?_⟩
  exact CSharp.exists_renderings hns hprograms hchecker

/-- A statement that writes nothing, a conditional with a block and a loop with a single statement
in it, and a return. -/
def checkout : List Node :=
  let recorded (s : String) : Value := .node .identifier .unknown (.text s) none [.text s]
  let node (kind : Kind) (fields : List Value) : Node := ⟨kind, .unknown, .text "", none, fields⟩
  let call (s : String) := Value.bare .expressionStatement [
    .bare .callExpression [recorded s, .list []]]
  let loop := Value.bare .forOfStatement [
    .bare .variableDeclarationList [
      .list [.bare .variableDeclaration [recorded "item", .null, .null]], .text "const"],
    recorded "items", call "charge"]
  [node .variableStatement [.bare .variableDeclarationList [.list [], .text "let"]],
    node .ifStatement [recorded "paid", .bare .block [.list [call "ship", loop]], .null],
    node .returnStatement [.null]]

/-- The statements of the checkout are rendered one by one, as a file and as a block. -/
theorem Target.render_statements_checkout :
    ∃ rs : List Rendering,
      List.Forall₂ (fun n r => render (.text CSharp.name) [("indent", .int 2)] .recorded n.toValue =
        .ok r) checkout rs ∧
      render (.text CSharp.name) [("indent", .int 2)] .recorded
        (.bare .sourceFile [.list (checkout.map Node.toValue), .text "shop.ts"]) =
          .ok ⟨"\n".intercalate (Rendering.texts rs), rs.flatMap Rendering.diagnostics⟩ ∧
      render (.text CSharp.name) [("indent", .int 2)] .recorded
        (.bare .block [.list (checkout.map Node.toValue)]) =
          .ok ⟨"\n\x7b" ++ String.join ((Rendering.texts rs).map fun t =>
            "\n" ++ Text.indentLines 2 t) ++ "\n\x7d", rs.flatMap Rendering.diagnostics⟩ := by
  have hoptions : ∀ o ∈ [("indent", Data.int 2)], IsOption o := by
    intro o ho
    obtain rfl := List.mem_singleton.1 ho
    exact Or.inr ⟨rfl, 2, rfl⟩
  have hprograms : ∀ n ∈ checkout, n.IsProgram := by decide
  have hns : ∀ n ∈ checkout, n.IsListed := by
    have hkinds : ∀ n ∈ checkout, n.kind ∈ Kind.statements ∧ n.kind ≠ .block := by decide
    exact fun n hn => (hprograms n hn).isListed (hkinds n hn).1 (hkinds n hn).2
  let file : Node :=
    ⟨.sourceFile, .unknown, .text "", none, [.list (checkout.map Node.toValue), .text "shop.ts"]⟩
  let block : Node := ⟨.block, .unknown, .text "", none, [.list (checkout.map Node.toValue)]⟩
  obtain ⟨hlists, hexists⟩ := render_statements (k := 2) (o := { indent := .blanks 2 }) hoptions
    rfl rfl .recorded hns file block rfl rfl rfl rfl
  obtain ⟨rs, hrs⟩ := hexists hprograms (Or.inl rfl)
  exact ⟨rs, hrs, hlists rs hrs⟩

end CodeSample

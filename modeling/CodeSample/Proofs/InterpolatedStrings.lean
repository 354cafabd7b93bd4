import CodeSample.Proofs.CalleeTexts
import CodeSample.Proofs.StringLiterals

/-!
# Interpolated strings can be read back

The texts of a template are escaped as in a literal and have their braces doubled besides, and the
sources of its holes stand in single braces. A text may begin or end in braces next to a hole, so
that three and more of them follow one another. They are still told apart: reading takes them two by
two from the left, the source in a hole has none of its own, and what a text ends in is doubled.

* `readText?` and `readHole?` read an interpolated string up to the quotation mark that ends it;
* `readText?_interpolated` and `readText?_hole` are what is read where a text or a hole stands in
  front, whatever follows it, and `readText?_spans` is the induction along the holes;
* `template_reads_back`: what is written for a template is read back as its texts and sources.
-/

namespace CodeSample

namespace Text

/-! ### Reading -/

/-- What is read from an interpolated string: the text in front of the first hole, each hole with
the text behind it, and what follows the string. -/
structure Interpolation where
  head : List Char
  spans : List (List Char × List Char)
  rest : List Char
deriving DecidableEq, Repr

namespace Interpolation

/-- A text in front of what is read. -/
def behindText (cs : List Char) (i : Interpolation) : Interpolation :=
  { i with head := cs ++ i.head }

/-- A hole in front of what is read. -/
def behindHole (hole : List Char) (i : Interpolation) : Interpolation :=
  ⟨[], (hole, i.head) :: i.spans, i.rest⟩

/-- Behind no text, what is read stays as it is. -/
theorem behindText_nil : behindText [] = id := rfl

/-- Behind two texts, what is read stands behind both together. -/
theorem behindText_comp (cs ds : List Char) :
    behindText cs ∘ behindText ds = behindText (cs ++ ds) := by
  funext i
  exact congrArg (Interpolation.mk · i.spans i.rest) (List.append_assoc cs ds i.head).symm

end Interpolation

open Interpolation (behindText behindHole)

mutual

/-- Reads an interpolated string from a place between its holes. An escape stands for one character,
and so does a doubled brace. A single opening brace starts a hole, a single closing brace is
refused, and a quotation mark ends the string. -/
def readText? : List Char → Option Interpolation
  | [] => none
  | c :: cs =>
    if c = '"' then some ⟨[], [], cs⟩
    else if c = '\\' then
      match cs with
      | [] => none
      | e :: cs => do
        let d ← unescapeChar? e
        (readText? cs).map (behindText [d])
    else if c = '\x7b' then
      match cs with
      | [] => none
      | d :: cs =>
        if d = '\x7b' then (readText? cs).map (behindText [c])
        else (readHole? (d :: cs)).map fun x => x.2.behindHole x.1
    else if c = '\x7d' then
      match cs with
      | [] => none
      | d :: cs => if d = '\x7d' then (readText? cs).map (behindText [c]) else none
    else (readText? cs).map (behindText [c])

/-- Reads an interpolated string from a place in a hole, which ends at the next closing brace. -/
def readHole? : List Char → Option (List Char × Interpolation)
  | [] => none
  | c :: cs =>
    if c = '\x7d' then (readText? cs).map fun i => ([], i)
    else (readHole? cs).map fun x => (c :: x.1, x.2)

end

/-! ### Characters -/

/-- A quotation mark ends the string. -/
theorem readText?_quote (rest : List Char) : readText? ('"' :: rest) = some ⟨[], [], rest⟩ := by
  rw [readText?.eq_def]
  exact if_pos rfl

/-- An escape is read as the character that it stands for. -/
theorem readText?_escape {c e : Char} (he : (c, e) ∈ escapes) (rest : List Char) :
    readText? ('\\' :: e :: rest) = (readText? rest).map (behindText [c]) := by
  rw [readText?, if_neg (by decide), if_pos rfl, unescapeChar?_of_mem he]
  rfl

/-- A character that stands for itself is read as it is. -/
theorem readText?_plain {c : Char} (hquote : c ≠ '"') (hslash : c ≠ '\\') (hopening : c ≠ '\x7b')
    (hclosing : c ≠ '\x7d') (rest : List Char) :
    readText? (c :: rest) = (readText? rest).map (behindText [c]) := by
  rw [readText?.eq_def]
  dsimp only
  rw [if_neg hquote, if_neg hslash, if_neg hopening, if_neg hclosing]

/-! ### Texts -/

/-- The characters of a text between the holes. -/
def interpolatedChars (cs : List Char) : List Char := doubleBraces (escapeChars cs)

/-- The braces in two texts are doubled each by itself. -/
theorem doubleBraces_append (cs ds : List Char) :
    doubleBraces (cs ++ ds) = doubleBraces cs ++ doubleBraces ds := by
  rw [doubleBraces, replaceChar_append, replaceChar_append, doubleBraces, doubleBraces]

/-- A text without braces stays as it is. -/
theorem doubleBraces_of_not_mem {cs : List Char} (hopening : '\x7b' ∉ cs)
    (hclosing : '\x7d' ∉ cs) : doubleBraces cs = cs := by
  rw [doubleBraces, replaceChar_of_not_mem hopening, replaceChar_of_not_mem hclosing]

/-- A text is escaped and has its braces doubled character by character. -/
theorem interpolatedChars_cons (c : Char) (cs : List Char) :
    interpolatedChars (c :: cs) = doubleBraces (escapeChar c) ++ interpolatedChars cs := by
  rw [interpolatedChars, escapeChars_cons, doubleBraces_append, interpolatedChars]

/-- One character of a text, whatever follows it. -/
theorem readText?_char (c : Char) (rest : List Char) :
    readText? (doubleBraces (escapeChar c) ++ rest) = (readText? rest).map (behindText [c]) := by
  rcases escapeChar_cases c with ⟨e, he, hescape⟩ | ⟨hplain, hescape⟩
  · have hnobrace : ∀ x ∈ escapes, '\x7b' ∉ ['\\', x.2] ∧ '\x7d' ∉ ['\\', x.2] := by decide
    obtain ⟨hopening, hclosing⟩ := hnobrace (c, e) he
    rw [hescape, doubleBraces_of_not_mem hopening hclosing]
    exact readText?_escape he rest
  · obtain ⟨hslash, hquote⟩ := ne_of_not_mem_escapes hplain
    rw [hescape]
    by_cases hopening : c = '\x7b'
    · subst hopening
      rfl
    · by_cases hclosing : c = '\x7d'
      · subst hclosing
        rfl
      · rw [doubleBraces_of_not_mem (by simpa using Ne.symm hopening)
          (by simpa using Ne.symm hclosing)]
        exact readText?_plain hquote hslash hopening hclosing rest

/-- A text in front of anything is read as itself. -/
theorem readText?_interpolated (cs rest : List Char) :
    readText? (interpolatedChars cs ++ rest) = (readText? rest).map (behindText cs) := by
  induction cs with
  | nil =>
    rw [Interpolation.behindText_nil, Option.map_id]
    rfl
  | cons c cs ih =>
    rw [interpolatedChars_cons, List.append_assoc, readText?_char, ih, Option.map_map,
      Interpolation.behindText_comp, List.singleton_append]

/-! ### Holes -/

/-- A hole is read up to its closing brace, if it has none inside. -/
theorem readHole?_append {hole : List Char} (h : '\x7d' ∉ hole) (rest : List Char) :
    readHole? (hole ++ '\x7d' :: rest) = (readText? rest).map fun i => (hole, i) := by
  induction hole with
  | nil => rw [List.nil_append, readHole?, if_pos rfl]
  | cons c hole ih =>
    rw [List.mem_cons, not_or] at h
    rw [List.cons_append, readHole?, if_neg (Ne.symm h.1), ih h.2, Option.map_map]
    rfl

/-- A hole in front of anything. What stands behind its opening brace is no second one, as the hole
has none and ends in a closing one. -/
theorem readText?_hole {hole : List Char} (hopening : '\x7b' ∉ hole) (hclosing : '\x7d' ∉ hole)
    (rest : List Char) :
    readText? ('\x7b' :: hole ++ '\x7d' :: rest) = (readText? rest).map (behindHole hole) := by
  obtain ⟨d, ds, hds, hd⟩ : ∃ d ds, hole ++ '\x7d' :: rest = d :: ds ∧ d ≠ '\x7b' := by
    cases hole with
    | nil => exact ⟨_, _, rfl, by decide⟩
    | cons c hole => exact ⟨c, _, rfl, fun hc => hopening (hc ▸ List.mem_cons_self)⟩
  have hread : readText? ('\x7b' :: d :: ds) =
      (readHole? (d :: ds)).map fun x => x.2.behindHole x.1 := by
    rw [readText?, if_neg (by decide), if_neg (by decide), if_pos rfl]
    exact if_neg hd
  rw [List.cons_append, hds, hread, ← hds, readHole?_append hclosing, Option.map_map]
  rfl

/-! ### Whole strings -/

/-- The characters of holes, each with the text behind it. -/
def spanChars (spans : List (List Char × List Char)) : List Char :=
  spans.flatMap fun x => '\x7b' :: x.1 ++ '\x7d' :: interpolatedChars x.2

/-- Holes, each with the text behind it, are read one after the other, by induction along them. -/
theorem readText?_spans {spans : List (List Char × List Char)}
    (h : ∀ x ∈ spans, '\x7b' ∉ x.1 ∧ '\x7d' ∉ x.1) (rest : List Char) :
    readText? (spanChars spans ++ '"' :: rest) = some ⟨[], spans, rest⟩ := by
  induction spans with
  | nil => exact readText?_quote rest
  | cons x spans ih =>
    obtain ⟨hx, hspans⟩ := List.forall_mem_cons.1 h
    have hsplit : spanChars (x :: spans) ++ '"' :: rest = '\x7b' :: x.1 ++
        '\x7d' :: (interpolatedChars x.2 ++ (spanChars spans ++ '"' :: rest)) := by
      simp [spanChars]
    rw [hsplit, readText?_hole hx.1 hx.2, readText?_interpolated, ih hspans, Option.map_some,
      Option.map_some, behindText, behindHole, List.append_nil]

/-- A text, and holes with the text behind each. -/
theorem readText?_template (head : List Char) {spans : List (List Char × List Char)}
    (h : ∀ x ∈ spans, '\x7b' ∉ x.1 ∧ '\x7d' ∉ x.1) (rest : List Char) :
    readText? (interpolatedChars head ++ spanChars spans ++ '"' :: rest) =
      some ⟨head, spans, rest⟩ := by
  rw [List.append_assoc, readText?_interpolated, readText?_spans h, Option.map_some, behindText,
    List.append_nil]

/-- Three braces are a hole at one end of a text or at the other. -/
example : readText? (interpolatedChars "\x7b".toList ++
      spanChars [("a".toList, "\x7d\x7b".toList), ("b".toList, "\x7d".toList)] ++ ['"', ';']) =
    some ⟨"\x7b".toList, [("a".toList, "\x7d\x7b".toList), ("b".toList, "\x7d".toList)],
      [';']⟩ := by
  decide

/-! ### One line -/

/-- No line is broken in a text of an interpolated string: line breaks are escaped. -/
theorem newline_not_mem_interpolatedChars (cs : List Char) : '\n' ∉ interpolatedChars cs := by
  have hdoubled {c : Char} (hc : c ≠ '\n') {ds : List Char} (h : '\n' ∉ ds) :
      '\n' ∉ replaceChar c [c, c] ds := by
    rw [replaceChar, List.mem_flatMap]
    rintro ⟨d, hd, hmem⟩
    split at hmem
    · simp [Ne.symm hc] at hmem
    · exact h (List.mem_singleton.1 hmem ▸ hd)
  exact hdoubled (by decide) (hdoubled (by decide) (not_mem_escapeChars (by simp [controls]) cs))

/-- No line is broken in the holes and texts, if none is in the holes. -/
theorem newline_not_mem_spanChars {spans : List (List Char × List Char)}
    (h : ∀ x ∈ spans, '\n' ∉ x.1) : '\n' ∉ spanChars spans := by
  rw [spanChars, List.mem_flatMap]
  rintro ⟨x, hx, hmem⟩
  rw [List.cons_append, List.mem_cons, List.mem_append, List.mem_cons] at hmem
  rcases hmem with hmem | hmem | hmem | hmem
  · exact absurd hmem (by decide)
  · exact h x hx hmem
  · exact absurd hmem (by decide)
  · exact newline_not_mem_interpolatedChars x.2 hmem

end Text

namespace CSharp

open Layout (Fragment Indent)
open Layout.Fragment (row render_row render_piece closes_text isPlain_row isPlain_text)

/-- A node is the template expression of a text and of spans, each with the source text of what
stands in the hole and with the text behind it. -/
structure IsTemplate (n : Node) (head : String) (spans : List (String × String)) : Prop where
  kind : n.kind = .templateExpression
  head : n.get .head = .text head
  spans : ∃ vs, n.get .spans = .list vs ∧ List.Forall₂ IsSpanOf vs spans

/-- The characters of a hole and of the text behind it. -/
def spanOf (x : String × String) : List Char × List Char := (x.1.toList, x.2.toList)

variable {n : Node} {head : String} {spans : List (String × String)}

/-- An interpolated string is its sign, a quotation mark, the texts and holes, and a quotation mark.
-/
theorem toList_templateOf (head : String) (spans : List (String × String)) :
    (templateOf head spans).toList = '$' :: '"' ::
      (Text.interpolatedChars head.toList ++ Text.spanChars (spans.map spanOf) ++ ['"']) := by
  have hholes : (String.join (spans.map fun x =>
      "\x7b" ++ x.1 ++ "\x7d" ++ Text.escapeInterpolated x.2)).toList =
        Text.spanChars (spans.map spanOf) := by
    rw [String.toList_join, List.flatMap_map, Text.spanChars, List.flatMap_map]
    simp [Text.escapeInterpolated, Text.interpolatedChars, spanOf]
  simp only [templateOf, String.toList_append, hholes]
  simp [Text.escapeInterpolated, Text.interpolatedChars]

/-- A template whose holes stand on one line stands on one line. -/
theorem isPiece_templateOf (h : ∀ x ∈ spans, '\n' ∉ x.1.toList) :
    Text.IsPiece (templateOf head spans) := by
  have hholes : '\n' ∉ Text.spanChars (spans.map spanOf) :=
    Text.newline_not_mem_spanChars fun y hy => by
      obtain ⟨x, hx, rfl⟩ := List.mem_map.1 hy
      exact h x hx
  refine ⟨?_, fun hempty => ?_, fun c hc => ?_⟩
  · rw [toList_templateOf]
    simp [hholes, Text.newline_not_mem_interpolatedChars]
  · have hlist := toList_templateOf head spans
    rw [hempty] at hlist
    cases hlist
  · rw [toList_templateOf, ← List.cons_append, ← List.cons_append, List.getLast?_concat] at hc
    obtain rfl := Option.some.inj hc
    decide

/-- What the rule for templates makes of one, in every context. -/
theorem convert_template (h : IsTemplate n head spans) (indent : Indent) (preferStruct : Data)
    (checker : Checker) (c : Flags) :
    (backend indent preferStruct).convert checker c n.toValue =
      pure (row [.text (templateOf head spans)]) := by
  obtain ⟨vs, hvs, hmatch⟩ := h.spans
  have hrule : rule? indent n.kind = some templateExpression := by
    rw [h.kind]
    rfl
  rw [convert_of_rule hrule, templateExpression, templateText_eq h.head hvs hmatch]
  rfl

/-- The finished output of a template on its own, whatever stands in its holes. -/
theorem render_row_template (h : IsTemplate n head spans) (indent : Indent) (preferStruct : Data)
    (checker : Checker) : (backend indent preferStruct).render checker n.toValue =
      .ok ⟨(row [.text (templateOf head spans)]).render, []⟩ := by
  unfold Backend.render
  rw [convert_template h]
  change (do
    let text ← (row [.text (templateOf head spans)]).output
    return (⟨text, []⟩ : Rendering)) = _
  rw [Fragment.output_of_isPlain (isPlain_row (by simp [isPlain_text]))]
  rfl

/-- The finished output of a template on its own. -/
theorem render_template (h : IsTemplate n head spans) (hlines : ∀ x ∈ spans, '\n' ∉ x.1.toList)
    (indent : Indent) (preferStruct : Data) (checker : Checker) :
    (backend indent preferStruct).render checker n.toValue = .ok ⟨templateOf head spans, []⟩ := by
  have hcloses : ∀ f ∈ [Fragment.text (templateOf head spans)], f.Closes := by
    simpa using closes_text (Text.closes_of_ends (isFramed_templateOf head spans).ends)
  rw [render_row_template h, render_row hcloses, List.map_singleton,
    render_piece (isPiece_templateOf hlines)]
  simp

/-- An interpolated string can be read back. What is written for a template, wherever it stands and
on its own, is read up to its last character as the text of the template and its holes, each with
the source of what stands in it and the text behind it, if no brace and no line break stands in
those sources. There is no condition on the texts, which may begin or end in braces. -/
theorem template_reads_back (h : IsTemplate n head spans)
    (hholes : ∀ x ∈ spans, ∀ c ∈ x.1.toList, c ≠ '\x7b' ∧ c ≠ '\x7d' ∧ c ≠ '\n') :
    ∃ text body, text.toList = '$' :: '"' :: body ∧
      Text.readText? body = some ⟨head.toList, spans.map spanOf, []⟩ ∧
      (∀ indent preferStruct checker c,
        (backend indent preferStruct).convert checker c n.toValue = pure (row [.text text])) ∧
      ∀ options checker, (∀ o ∈ options, Target.IsOption o) →
        Target.render (.text name) options checker n.toValue = .ok ⟨text, []⟩ := by
  refine ⟨templateOf head spans, _, toList_templateOf head spans, ?_, convert_template h, ?_⟩
  · refine Text.readText?_template head.toList (fun y hy => ?_) []
    obtain ⟨x, hx, rfl⟩ := List.mem_map.1 hy
    exact ⟨fun hc => (hholes x hx _ hc).1 rfl, fun hc => (hholes x hx _ hc).2.1 rfl⟩
  · intro options checker hoptions
    obtain ⟨o, ho, -⟩ := Target.ofMembers_ok hoptions
    rw [Target.render_eq hoptions ho]
    exact render_template h (fun x hx hc => (hholes x hx _ hc).2.2 rfl) _ _ _

/-- A template with braces next to its holes. -/
def braced : Node :=
  let name (s : String) : Value := .node .identifier .unknown (.text s) none [.text s]
  ⟨.templateExpression, .unknown, .text "", none,
    [.text "\x7b", .list [.bare .templateSpan [name "x", .text "\x7d\n\x7b"],
      .bare .templateSpan [name "y", .text "\x7d\""]]]⟩

/-- A template with braces next to its holes, a line break and a quotation mark is read back. -/
theorem template_reads_back_braced :
    IsTemplate braced "\x7b" [("x", "\x7d\n\x7b"), ("y", "\x7d\"")] ∧
    ∃ text body, text.toList = '$' :: '"' :: body ∧
      Text.readText? body = some ⟨['\x7b'], [(['x'], ['\x7d', '\n', '\x7b']),
        (['y'], ['\x7d', '"'])], []⟩ ∧
      Target.render (.text name) [] .recorded braced.toValue = .ok ⟨text, []⟩ := by
  have htemplate : IsTemplate braced "\x7b" [("x", "\x7d\n\x7b"), ("y", "\x7d\"")] :=
    ⟨rfl, rfl, _, rfl, .cons ⟨_, rfl, rfl, rfl⟩ (.cons ⟨_, rfl, rfl, rfl⟩ .nil)⟩
  have hholes : ∀ x ∈ [("x", "\x7d\n\x7b"), ("y", "\x7d\"")],
      ∀ c ∈ x.1.toList, c ≠ '\x7b' ∧ c ≠ '\x7d' ∧ c ≠ '\n' := by simp
  obtain ⟨text, body, htext, hread, -, hrender⟩ := template_reads_back htemplate hholes
  exact ⟨htemplate, text, body, htext, hread, hrender [] .recorded (by simp)⟩

end CSharp

end CodeSample

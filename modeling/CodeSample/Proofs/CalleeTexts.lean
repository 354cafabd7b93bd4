import CodeSample.Proofs.FramedExpressions

/-!
# The texts of calls and accesses

The C# text of a call, of an access or of an expression in parentheses is put together from the
texts of its parts, each in the place where the expression puts it. There are two places: that of a
member, where identifiers are capitalised, and every other one. A callee and a name are in the place
of a member, a receiver is not, and all other parts are where the expression itself is.

* `Backend.textIn` is the text of a value in a context, `CSharp.textAt` the text of a value in one
  of the two places;
* `textAt_call`, `textAt_access`, `textAt_elementAccess`, `textAt_parenthesized` and
  `textAt_identifier` are the texts of expressions by the texts of their parts;
* `CSharp.Composes` follows an expression along its callees and receivers;
* `Target.text_composed` is the statement for the finished text.
-/

namespace CodeSample

open Layout (Fragment Indent)

/-! ### Names -/

namespace Text

/-- No character that maps to several maps to a small Latin letter among them. -/
theorem not_small_of_upperExpansions : ∀ e ∈ upperExpansions, ∀ n ∈ e.2, n < 0x61 ∨ 0x7a < n := by
  decide +kernel

/-- No run of characters maps to small Latin letters. -/
theorem not_small_of_upperRuns : ∀ r ∈ upperRuns,
    r.last + r.offset < 0x61 ∨ 0x7a < r.first + r.offset := by
  decide +kernel

/-- A code point that is no small Latin letter gives no such character. -/
theorem not_small_ofNat {n : Nat} (h : n < 0x61 ∨ 0x7a < n) :
    (Char.ofNat n).toNat < 0x61 ∨ 0x7a < (Char.ofNat n).toNat := by
  rcases ofNat_cases n with hcode | hnull
  · rwa [hcode]
  · rw [hnull]
    decide

/-- No character has an upper case with a small Latin letter in it. -/
theorem not_small_of_mem_upper {c d : Char} (h : d ∈ upper c) :
    d.toNat < 0x61 ∨ 0x7a < d.toNat := by
  rcases cases_of_mem_upper h with ⟨e, he, n, hn, rfl⟩ | ⟨r, hr, hcovers, rfl⟩ | ⟨hnone, rfl⟩
  · exact not_small_ofNat (not_small_of_upperExpansions e he n hn)
  · unfold CaseRun.covers at hcovers
    simp only [Bool.and_eq_true, decide_eq_true_eq] at hcovers
    have hpositive := (isOutside_of_upperRuns r hr).1
    have houtside := not_small_of_upperRuns r hr
    exact not_small_ofNat (by omega)
  · -- the first run holds all small Latin letters
    have hlatin := hnone ⟨0x61, 0x7a, 1, -32⟩ List.mem_cons_self
    unfold CaseRun.covers at hlatin
    simp only [Nat.mod_one, beq_self_eq_true, Bool.and_true, Bool.and_eq_false_iff,
      decide_eq_false_iff_not] at hlatin
    omega

end Text

/-- Every reserved word starts with a small letter, so no capitalised name is reserved. -/
theorem CSharp.safeName_upperFirst (s : String) :
    safeName (Text.upperFirst s) = Text.upperFirst s := by
  have hsmall : ∀ w ∈ reservedWords,
      w.toList.head?.any (fun c => 0x61 ≤ c.toNat ∧ c.toNat ≤ 0x7a) = true := by
    decide +kernel
  unfold safeName
  rw [if_neg]
  intro hreserved
  obtain ⟨c, hc, hbounds⟩ :=
    (Option.any_eq_true _ _).1 (hsmall _ (List.contains_iff_mem.1 hreserved))
  obtain ⟨hfirst, hlast⟩ := of_decide_eq_true hbounds
  unfold Text.upperFirst at hc
  cases hs : s.toList with
  | nil =>
    rw [hs] at hc
    cases hc
  | cons d rest =>
    rw [hs] at hc
    dsimp only at hc
    obtain ⟨e, es, he⟩ := List.exists_cons_of_ne_nil (Text.upper_ne_nil d)
    rw [String.toList_ofList, he] at hc
    obtain rfl : e = c := Option.some.inj hc
    have := Text.not_small_of_mem_upper (he ▸ List.mem_cons_self : e ∈ Text.upper d)
    omega

/-! ### Texts in a context -/

/-- The text of a value in a context. -/
def Backend.textIn {C : Type} (backend : Backend C) (checker : Checker) (context : C) (v : Value) :
    Except Fault String := do
  (← (backend.convert checker context v).outcome).output

/-- The text of a rendering is that in the context which rendering starts in. -/
theorem Backend.text_render {C : Type} (backend : Backend C) (checker : Checker) (v : Value) :
    (backend.render checker v).map Rendering.text =
      backend.textIn checker backend.initial v := by
  unfold render textIn
  generalize backend.convert checker backend.initial v = run
  obtain ⟨reports, outcome⟩ := run
  cases outcome with
  | error fault => rfl
  | ok f =>
    show (f.output >>= fun text => pure (⟨text, reports⟩ : Rendering)).map Rendering.text = f.output
    cases f.output <;> rfl

namespace Layout.Fragment

/-- A piece is left as it is. -/
theorem render_piece {s : String} (h : Text.IsPiece s) : (text s).render = s := by
  have hstrip := Text.stripLineEnds_piece h.unbroken
    (fun hnil => h.nonempty (String.toList_eq_nil_iff.1 hnil)) h.ending []
  rw [List.append_nil] at hstrip
  rw [← String.toList_inj, toList_render, raw_text, hstrip]
  exact List.append_nil _

/-- A text without white space is left as it is. -/
theorem render_text {s : String} (h : Text.isUnspaced s = true) : (text s).render = s := by
  obtain ⟨hne, hall⟩ := Text.isUnspaced_iff.1 h
  refine render_piece ⟨fun hmem => absurd (hall _ hmem) (by decide), hne, fun c hc => ?_⟩
  have hblank := hall c (List.mem_of_getLast? hc)
  constructor <;>
  · rintro rfl
    exact absurd hblank (by decide)

end Layout.Fragment

namespace CSharp

open Layout.Fragment (row separated render_row render_commas render_text closes_text flows_row)

/-- The context in the place of a member, or outside of it, among no pairs and in no class. -/
def place (preferStruct : Data) (member : Bool) : Flags :=
  { preferStruct, memberPosition := .bool member }

/-- The text of a value in the place of a member, or outside of it. -/
def textAt (indent : Indent) (preferStruct : Data) (checker : Checker) (member : Bool)
    (v : Value) : Except Fault String :=
  (backend indent preferStruct).textIn checker (place preferStruct member) v

variable {indent : Indent} {preferStruct : Data} {checker : Checker} {member : Bool} {n e : Node}

/-- The text of a value that is rendered as a fragment on one line is that of the fragment. -/
theorem textAt_of_convert {v : Value} {f : Fragment}
    (h : ((backend indent preferStruct).convert checker (place preferStruct member) v).Gives
      (· = f))
    (hf : f.flows = true) :
    textAt indent preferStruct checker member v = .ok f.render := by
  obtain ⟨_, houtcome, rfl⟩ := h
  unfold textAt Backend.textIn
  rw [houtcome]
  exact Fragment.output_of_isPlain (Layout.Fragment.isPlain_of_flows hf)

/-- The text of what a rule gives in a row. -/
theorem textAt_of_rule {rule : Rule Flags} (hrule : rule? indent n.kind = some rule)
    {fs : List Fragment}
    (h : (rule ((backend indent preferStruct).view checker (place preferStruct member)) n).Gives
      (· = row fs))
    (hfs : ∀ f ∈ fs, f.Closes) :
    textAt indent preferStruct checker member n.toValue =
      .ok (String.join (fs.map Fragment.render)) := by
  rw [← convert_of_rule hrule] at h
  rw [textAt_of_convert h (flows_row (fun f hf => (hfs f hf).flows) false), render_row hfs]

section

variable (preferStruct) (hindent : indent.isWhole = true) (hchecker : checker.IsTabled)
include hindent hchecker

/-! ### The output of parts -/

/-- An expression has a text in each place, that of output which starts and ends with ink. -/
theorem exists_framed (hn : n.IsUnspacedProgram) (hk : n.kind ∈ Kind.expressions) (member : Bool) :
    ∃ f : Fragment, f.IsFramed ∧
      ((backend indent preferStruct).convert checker (place preferStruct member) n.toValue).Gives
        (· = f) ∧
      textAt indent preferStruct checker member n.toValue = .ok f.render := by
  have hc : (place preferStruct member).stringAsIdentifier.truthy = false := rfl
  obtain ⟨f, hf, hframes⟩ := frames_convert hindent hchecker preferStruct
    (isFound hc hn (List.mem_append_left _ hk))
  have hframed := hframes.framed hk hc
  exact ⟨f, hframed, ⟨f, hf, rfl⟩, textAt_of_convert ⟨f, hf, rfl⟩ hframed.flows⟩

/-- Each of several expressions has such a text. -/
theorem exists_framed_all {vs : List Value} (hvs : ∀ v ∈ vs, ∃ m : Node, v = m.toValue ∧
      m.IsUnspacedProgram ∧ m.kind ∈ Kind.expressions) (member : Bool) :
    ∃ fs : List Fragment, (∀ f ∈ fs, f.IsFramed) ∧
      (((backend indent preferStruct).view checker (place preferStruct member)).convertAll
        (.list vs)).Gives (· = fs) ∧
      vs.mapM (textAt indent preferStruct checker member) = .ok (fs.map Fragment.render) := by
  unfold View.convertAll
  show ∃ fs : List Fragment, _ ∧ (vs.mapM _ : Run (List Fragment)).Gives _ ∧ _
  induction vs with
  | nil => exact ⟨[], by simp, Run.gives_pure rfl, rfl⟩
  | cons v vs ih =>
    rw [List.forall_mem_cons] at hvs
    obtain ⟨⟨m, rfl, hm, hk⟩, hrest⟩ := hvs
    obtain ⟨f, hf, hconvert, htext⟩ :=
      exists_framed preferStruct hindent hchecker hm hk member
    obtain ⟨fs, hfs, hconverts, htexts⟩ := ih hrest
    refine ⟨f :: fs, List.forall_mem_cons.2 ⟨hf, hfs⟩, ?_, ?_⟩
    · rw [List.mapM_cons]
      refine hconvert.bind ?_
      rintro _ rfl
      refine hconverts.bind ?_
      rintro _ rfl
      exact Run.gives_pure rfl
    · rw [List.mapM_cons, htext, htexts]
      rfl

/-! ### Expressions by their parts -/

variable (hn : n.IsUnspacedProgram)
include hn

/-- What stands in a field that holds an expression has a text in each place. -/
theorem exists_framed_field {f : Field} {kinds : List Kind}
    (hf : Grammar.source.content? n.kind f = some (.one kinds))
    (hkinds : kinds ⊆ Kind.expressions) (member : Bool) :
    ∃ x : Fragment, x.IsFramed ∧
      ((backend indent preferStruct).convert checker (place preferStruct member)
        (n.get f)).Gives (· = x) ∧
      textAt indent preferStruct checker member (n.get f) = .ok x.render := by
  obtain ⟨m, hm, hmtree, hmk⟩ := Node.one_of_all Node.isShaped_of_isUnspaced hn hf
  rw [hm]
  exact exists_framed preferStruct hindent hchecker hmtree (hkinds hmk) member

/-- A call that does not print: the callee is in the place of a member, and the arguments are where
the call is. -/
theorem textAt_call (hk : n.kind = .callExpression)
    (hprint : Dispatch.isPrintCall (n.get .expression) = .ok false) {vs : List Value}
    (hvs : n.get .arguments = .list vs) (member : Bool) :
    ∃ t ts, textAt indent preferStruct checker true (n.get .expression) = .ok t ∧
      vs.mapM (textAt indent preferStruct checker member) = .ok ts ∧
      textAt indent preferStruct checker member n.toValue =
        .ok (t ++ "(" ++ ", ".intercalate ts ++ ")") := by
  obtain ⟨ws, hws, hall⟩ :=
    Node.many_of_all Node.isShaped_of_isUnspaced hn (f := .arguments) (by rw [hk]; rfl)
  obtain rfl := Value.list.inj (hvs.symm.trans hws)
  obtain ⟨x, hx, hcallee, ht⟩ := exists_framed_field preferStruct hindent
    hchecker hn (f := .expression) (by rw [hk]; rfl) (List.Subset.refl _) true
  obtain ⟨ys, hys, harguments, hts⟩ :=
    exists_framed_all preferStruct hindent hchecker hall member
  obtain ⟨hcommas, hlisted⟩ := render_commas hys
  refine ⟨_, _, ht, hts, ?_⟩
  have hgives : (Dispatch.call printCall regularCall
      ((backend indent preferStruct).view checker (place preferStruct member)) n).Gives
        (· = row [x, .text "(", separated ", " ys, .text ")"]) := by
    refine Run.gives_bind_ofExcept hprint ?_
    rw [← hvs] at harguments
    refine hcallee.bind ?_
    rintro _ rfl
    refine harguments.bind ?_
    rintro _ rfl
    exact Run.gives_pure rfl
  refine (textAt_of_rule (by rw [hk]; rfl) hgives ?_).trans ?_
  · simp (disch := decide) [hx.closes, hcommas, closes_text]
  · simp (disch := decide) [String.join, hlisted, render_text]

omit hindent hchecker in
/-- A name: capitalised in the place of a member, and elsewhere as it is or as null. -/
theorem textAt_identifier (hk : n.kind = .identifier) {s : String} (hs : n.get .text = .text s)
    (member : Bool) : textAt indent preferStruct checker member n.toValue =
      .ok (if member then Text.upperFirst s
        else if s = "undefined" then "null" else safeName s) := by
  obtain ⟨_, ht, hunspaced⟩ := hn.text hk
  obtain rfl := Value.text.inj (hs.symm.trans ht)
  have hspelled : spelledName (place preferStruct member) n.kind s =
      if member then Text.upperFirst s
        else if s = "undefined" then "null" else safeName s := by
    unfold spelledName
    rw [hk, safeName_upperFirst]
    cases member <;> simp [place, Data.truthy]
  have hword : Text.isUnspaced (spelledName (place preferStruct member) n.kind s) = true := by
    rw [hspelled]
    split
    · exact Text.isUnspaced_upperFirst hunspaced
    · split
      · decide
      · exact isUnspaced_safeName hunspaced
  have hgives : (identifier
      ((backend indent preferStruct).view checker (place preferStruct member)) n).Gives
        (· = row [.text (spelledName (place preferStruct member) n.kind s)]) :=
    gives_identifier _ hs
  have hcloses : (Fragment.text (spelledName (place preferStruct member) n.kind s)).Closes :=
    closes_text (Text.closes_of_ends (Text.isFramed_of_isUnspaced hword).ends)
  rw [textAt_of_rule (by rw [hk]; rfl) hgives (by simpa using hcloses), List.map_singleton,
    render_text hword, hspelled]
  simp [String.join]

omit hindent hchecker in
/-- The name of a property is capitalised. -/
theorem textAt_name (hk : n.kind = .propertyAccessExpression) : ∃ s : String,
    (n.get .name).property .text = .ok (.text s) ∧
      textAt indent preferStruct checker true (n.get .name) = .ok (Text.upperFirst s) := by
  obtain ⟨m, hm, hmtree, hmk⟩ :=
    Node.one_of_all Node.isShaped_of_isUnspaced hn (f := .name) (by rw [hk]; rfl)
  have hmk : m.kind = .identifier := List.mem_singleton.1 hmk
  obtain ⟨s, hs, -⟩ := Node.IsUnspacedProgram.text hmtree hmk
  rw [hm, Node.property_toValue (by rw [hmk]; rfl), hs]
  exact ⟨s, rfl, textAt_identifier preferStruct hmtree hmk hs true⟩

/-- An access to a property: the receiver is not in the place of a member, and the name is. -/
theorem textAt_access (hk : n.kind = .propertyAccessExpression) (member : Bool) :
    ∃ s this t, (n.get .name).property .text = .ok (.text s) ∧
      isThis (n.get .expression) = .ok this ∧
      textAt indent preferStruct checker false (n.get .expression) = .ok t ∧
      textAt indent preferStruct checker member n.toValue =
        .ok ((if this then "" else t ++ ".") ++ Text.upperFirst s) := by
  have hsource := exists_text_of_one hn.isProgram (f := .expression) (by rw [hk]; rfl)
  obtain ⟨this, hthis⟩ := isThis_ok hsource
  obtain ⟨s, hs, hname⟩ := textAt_name preferStruct hn hk
  obtain ⟨x, hx, hreceiver, ht⟩ := exists_framed_field preferStruct hindent
    hchecker hn (f := .expression) (by rw [hk]; rfl) (List.Subset.refl _) false
  obtain ⟨y, hy, hmember, hu⟩ := exists_framed_field preferStruct hindent
    hchecker hn (f := .name) (by rw [hk]; rfl) (by decide) true
  have hspelled : y.render = Text.upperFirst s := Except.ok.inj (hu.symm.trans hname)
  refine ⟨s, this, _, hs, hthis, ht, ?_⟩
  have hreceived : (receiver
      ((backend indent preferStruct).view checker (place preferStruct member))
      (n.get .expression)).Gives (· = if this then [] else [x, .text "."]) := by
    refine Run.gives_bind_ofExcept hthis ?_
    cases this with
    | true => exact Run.gives_pure rfl
    | false =>
      refine hreceiver.bind ?_
      rintro _ rfl
      exact Run.gives_pure rfl
  have hgives : (propertyAccess
      ((backend indent preferStruct).view checker (place preferStruct member)) n).Gives
        (· = row ((if this then [] else [x, .text "."]) ++ [y])) := by
    refine hreceived.bind ?_
    rintro _ rfl
    refine hmember.bind ?_
    rintro _ rfl
    exact Run.gives_pure rfl
  refine (textAt_of_rule (by rw [hk]; rfl) hgives ?_).trans ?_
  · cases this <;> simp (disch := decide) [hx.closes, hy.closes, closes_text]
  · cases this <;> simp (disch := decide) [String.join, hspelled, render_text]

/-- An access to an element: both parts are where the access is. -/
theorem textAt_elementAccess (hk : n.kind = .elementAccessExpression) (member : Bool) :
    ∃ t u, textAt indent preferStruct checker member (n.get .expression) = .ok t ∧
      textAt indent preferStruct checker member (n.get .argument) = .ok u ∧
      textAt indent preferStruct checker member n.toValue = .ok (t ++ "[" ++ u ++ "]") := by
  obtain ⟨x, hx, hreceiver, ht⟩ := exists_framed_field preferStruct hindent
    hchecker hn (f := .expression) (by rw [hk]; rfl) (List.Subset.refl _) member
  obtain ⟨y, hy, hargument, hu⟩ := exists_framed_field preferStruct hindent
    hchecker hn (f := .argument) (by rw [hk]; rfl) (List.Subset.refl _) member
  refine ⟨_, _, ht, hu, ?_⟩
  have hgives : (Neutral.elementAccess
      ((backend indent preferStruct).view checker (place preferStruct member)) n).Gives
        (· = row [x, .text "[", y, .text "]"]) := by
    refine hreceiver.bind ?_
    rintro _ rfl
    refine hargument.bind ?_
    rintro _ rfl
    exact Run.gives_pure rfl
  refine (textAt_of_rule (by rw [hk]; rfl) hgives ?_).trans ?_
  · simp (disch := decide) [hx.closes, hy.closes, closes_text]
  · simp (disch := decide) [String.join, render_text]

/-- An expression in parentheses is where these are. -/
theorem textAt_parenthesized (hk : n.kind = .parenthesizedExpression) (member : Bool) :
    ∃ t, textAt indent preferStruct checker member (n.get .expression) = .ok t ∧
      textAt indent preferStruct checker member n.toValue = .ok ("(" ++ t ++ ")") := by
  obtain ⟨x, hx, hinner, ht⟩ := exists_framed_field preferStruct hindent
    hchecker hn (f := .expression) (by rw [hk]; rfl) (List.Subset.refl _) member
  refine ⟨_, ht, ?_⟩
  have hgives : (Neutral.parenthesized
      ((backend indent preferStruct).view checker (place preferStruct member)) n).Gives
        (· = row [.text "(", x, .text ")"]) := by
    refine hinner.bind ?_
    rintro _ rfl
    exact Run.gives_pure rfl
  refine (textAt_of_rule (by rw [hk]; rfl) hgives ?_).trans ?_
  · simp (disch := decide) [hx.closes, closes_text]
  · simp (disch := decide) [String.join, render_text]

/-! ### Expressions along their callees -/

/-- The kinds of what callees are made of. -/
def callees : List Kind := [
  .identifier, .propertyAccessExpression, .elementAccessExpression, .callExpression,
  .parenthesizedExpression]

/-- How the text of an expression in the place of a member, or outside of it, is put together along
its callees and receivers, by what the texts of other parts are in these places. -/
inductive Composes (text : Bool → Value → Except Fault String) : Bool → Value → String → Prop where
  | name {member : Bool} {n : Node} {s : String} : n.kind = .identifier → n.get .text = .text s →
    Composes text member n.toValue (if member then Text.upperFirst s
      else if s = "undefined" then "null" else safeName s)
  /-- The arguments of a call are in the place of a member if the call is. -/
  | call {member : Bool} {n : Node} {vs : List Value} {t : String} {ts : List String} :
    n.kind = .callExpression → Dispatch.isPrintCall (n.get .expression) = .ok false →
    n.get .arguments = .list vs → Composes text true (n.get .expression) t →
    vs.mapM (text member) = .ok ts →
    Composes text member n.toValue (t ++ "(" ++ ", ".intercalate ts ++ ")")
  /-- The receiver of an access is never in the place of a member. -/
  | access {member this : Bool} {n : Node} {s t : String} :
    n.kind = .propertyAccessExpression → (n.get .name).property .text = .ok (.text s) →
    isThis (n.get .expression) = .ok this → Composes text false (n.get .expression) t →
    Composes text member n.toValue ((if this then "" else t ++ ".") ++ Text.upperFirst s)
  | elementAccess {member : Bool} {n : Node} {t u : String} : n.kind = .elementAccessExpression →
    Composes text member (n.get .expression) t → text member (n.get .argument) = .ok u →
    Composes text member n.toValue (t ++ "[" ++ u ++ "]")
  | parenthesized {member : Bool} {n : Node} {t : String} : n.kind = .parenthesizedExpression →
    Composes text member (n.get .expression) t → Composes text member n.toValue ("(" ++ t ++ ")")
  /-- No callee leads further: a call that prints, or an expression of another kind. -/
  | other {member : Bool} {n : Node} {t : String} :
    n.kind ∉ callees ∨
      n.kind = .callExpression ∧ Dispatch.isPrintCall (n.get .expression) = .ok true →
    text member n.toValue = .ok t → Composes text member n.toValue t

/-- The text of every expression is put together along its callees and receivers. -/
theorem composes (hk : n.kind ∈ Kind.expressions) (member : Bool) :
    ∃ t, textAt indent preferStruct checker member n.toValue = .ok t ∧
      Composes (textAt indent preferStruct checker) member n.toValue t := by
  induction hd : n.toValue.depth using Nat.strongRecOn generalizing n member with | _ depth ih
  subst hd
  have part (hf : Grammar.source.content? n.kind .expression = some (.one Kind.expressions))
      {member : Bool} {t : String}
      (ht : textAt indent preferStruct checker member (n.get .expression) = .ok t) :
      Composes (textAt indent preferStruct checker) member (n.get .expression) t := by
    obtain ⟨m, hm, hmtree, hmk⟩ := Node.one_of_all Node.isShaped_of_isUnspaced hn hf
    have hlt := Value.depth_get_lt n .expression
    rw [hm] at hlt ht ⊢
    obtain ⟨u, hu, hcomposes⟩ := ih _ hlt hmtree hmk member rfl
    rw [ht] at hu
    cases hu
    exact hcomposes
  obtain ⟨f, -, -, hf⟩ := exists_framed preferStruct hindent hchecker hn hk member
  by_cases hcallee : n.kind ∈ callees
  · simp only [callees, List.mem_cons, List.not_mem_nil, or_false] at hcallee
    rcases hcallee with hk | hk | hk | hk | hk
    · obtain ⟨s, hs, -⟩ := hn.text hk
      exact ⟨_, textAt_identifier preferStruct hn hk hs member, .name hk hs⟩
    · obtain ⟨s, this, t, hname, hthis, ht, htext⟩ :=
        textAt_access preferStruct hindent hchecker hn hk member
      exact ⟨_, htext, .access hk hname hthis (part (by rw [hk]; rfl) ht)⟩
    · obtain ⟨t, u, ht, hu, htext⟩ :=
        textAt_elementAccess preferStruct hindent hchecker hn hk member
      exact ⟨_, htext, .elementAccess hk (part (by rw [hk]; rfl) ht) hu⟩
    · have hsource := exists_text_of_one hn.isProgram (f := .expression) (by rw [hk]; rfl)
      obtain ⟨print, hprint⟩ := Dispatch.isPrintCall_ok hsource
      cases print with
      | true => exact ⟨_, hf, .other (Or.inr ⟨hk, hprint⟩) hf⟩
      | false =>
        obtain ⟨vs, hvs, -⟩ :=
          Node.many_of_all Node.isShaped_of_isUnspaced hn (f := .arguments) (by rw [hk]; rfl)
        obtain ⟨t, ts, ht, hts, htext⟩ :=
          textAt_call preferStruct hindent hchecker hn hk hprint hvs member
        exact ⟨_, htext, .call hk hprint hvs (part (by rw [hk]; rfl) ht) hts⟩
    · obtain ⟨t, ht, htext⟩ := textAt_parenthesized preferStruct hindent hchecker hn hk member
      exact ⟨_, htext, .parenthesized hk (part (by rw [hk]; rfl) ht)⟩
  · exact ⟨_, hf, .other (Or.inl hcallee) hf⟩

end

end CSharp

/-! ### Texts of their own -/

namespace Target

/-- The C# text of a value on its own. -/
def text (options : List (String × Data)) (checker : Checker) (v : Value) : Except Fault String :=
  (render (.text CSharp.name) options checker v).map Rendering.text

/-- On its own, a value is outside of the place of a member. -/
theorem text_eq {options : List (String × Data)} {o : Options}
    (hoptions : ∀ option ∈ options, IsOption option) (ho : Options.ofMembers options = .ok o)
    (checker : Checker) (v : Value) :
    text options checker v = CSharp.textAt o.indent o.preferStruct checker false v := by
  unfold text
  rw [render_eq hoptions ho, Backend.text_render]
  rfl

/-- It is finished from what the value is converted to in the initial context. -/
theorem text_of_convert {options : List (String × Data)} {o : Options}
    (hoptions : ∀ option ∈ options, IsOption option) (ho : Options.ofMembers options = .ok o)
    {checker : Checker} {v : Value} {f : Fragment}
    (hf : ((CSharp.backend o.indent o.preferStruct).convert checker
      (CSharp.backend o.indent o.preferStruct).initial v).outcome = .ok f)
    (hplain : f.isPlain = true) : text options checker v = .ok f.render := by
  unfold text
  rw [render_eq hoptions ho, Backend.text_render]
  unfold Backend.textIn
  rw [hf]
  exact Fragment.output_of_isPlain hplain

/-- The text of an expression is put together along its callees and receivers. The arguments of the
expression, if it is a call, keep the text that they have on their own, and so do those of the calls
to which a receiver leads. A call that is called in its turn, be it in parentheses or by way of an
element, stands in the place of a member, and its arguments are written as they are there. -/
theorem text_composed {options : List (String × Data)} {o : Options} {checker : Checker} {n : Node}
    (hoptions : ∀ option ∈ options, IsOption option) (ho : Options.ofMembers options = .ok o)
    (hchecker : checker.IsTabled)
    (htree : n.toValue.all (fun m => m.isShaped .source && m.isUnspaced) = true)
    (hk : n.kind ∈ Kind.expressions) :
    ∃ t, text options checker n.toValue = .ok t ∧
      CSharp.Composes (CSharp.textAt o.indent o.preferStruct checker) false n.toValue t ∧
      ∀ v, CSharp.textAt o.indent o.preferStruct checker false v = text options checker v := by
  obtain ⟨o', ho', hindent⟩ := ofMembers_ok hoptions
  obtain rfl : o' = o := Except.ok.inj (ho'.symm.trans ho)
  obtain ⟨t, ht, hcomposes⟩ :=
    CSharp.composes o'.preferStruct hindent hchecker htree hk false
  exact ⟨t, (text_eq hoptions ho checker _).trans ht, hcomposes,
    fun v => (text_eq hoptions ho checker v).symm⟩

/-- The call `f(x)(y)`, whose callee is a call. -/
def curried : Node :=
  let name (s : String) : Value := .node .identifier .unknown (.text s) none [.text s]
  ⟨.callExpression, .unknown, .text "", none,
    [.bare .callExpression [name "f", .list [name "x"]], .list [name "y"]]⟩

/-- A call of what a call gives: the inner argument is in the place of a member. -/
theorem text_composed_curried :
    ∃ t, text [] .recorded curried.toValue = .ok t ∧
      CSharp.Composes (CSharp.textAt (.blanks 4) (.bool true) .recorded) false curried.toValue t ∧
      ∀ v, CSharp.textAt (.blanks 4) (.bool true) .recorded false v = text [] .recorded v :=
  text_composed (o := {}) (by simp) rfl (Or.inl rfl) (by decide) (by decide)

/-- The argument of the inner call is capitalised, and that of the outer one is not. -/
theorem text_curried :
    text [] .recorded curried.toValue = .ok "F(X)(y)" ∧
    text [] .recorded (.node .identifier .unknown (.text "x") none [.text "x"]) = .ok "x" := by
  decide +kernel

end Target

end CodeSample

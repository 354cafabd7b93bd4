import CodeSample.Proofs.CalleeTexts
import CodeSample.Proofs.DeclaredNames
import CodeSample.Proofs.OptionalMarks

/-!
# Object literals that are declared

The type of a variable that is declared without an annotation is that of its initializer. If that is
an object literal, the rule for declarations and that for literals both ask for the type, and each
reduces it for itself: the one writes it as a type, the other writes what the literal makes.

* `Sink.exists_written_tree` and `Fragment.StartsWith`: how what a fragment writes starts, and
  `Text.Opens`: how the finished text does;
* `outcome_renderType`: the spelling of a type does not depend on the node that it is asked for;
* `Names` ties the two spellings of the one member that counts: as a type, and behind `new`;
* `gives_declaredType_of_names` and `gives_literal_of_names` are what the two rules write;
* `Target.declares_literal` is the statement for output and texts.
-/

namespace CodeSample

open Layout (Fragment Indent Sink Style)
open Layout.Sink (stripLineEnds)
open Layout.Fragment (row line)

/-! ### How texts start -/

/-- A text opens with another one, which ends with ink: blanks at line ends are dropped, so that it
is there as it is if it stands on one line. -/
structure Text.Opens (text : String) (opening : String) : Prop where
  finished : ∃ rest, text.toList = stripLineEnds (opening.toList ++ rest)
  line : '\n' ∉ opening.toList → opening.toList <+: text.toList

/-- A text that was finished from characters which start with an opening that ends with ink opens
with it. -/
theorem Text.opens_of_finished {text opening : String} (hends : Ends opening.toList)
    {rest : List Char} (h : text.toList = stripLineEnds (opening.toList ++ rest)) :
    Opens text opening where
  finished := ⟨rest, h⟩
  line := by
    intro hline
    rw [h, stripLineEnds_line_append hline (closes_of_ends hends)]
    exact List.prefix_append _ _

namespace Layout

/-- A tree writes what stands in front, and more behind it. -/
theorem Sink.exists_written_tree (s : Sink) (front children : List Fragment) (style : Style) :
    ∃ rest, (s.write (.tree front children style)).written.toList =
      (s.writeAll front).written.toList ++ rest := by
  rw [write]
  generalize (if Fragment.allSilent children then 0 else style.indent.columns) = delta
  obtain ⟨inside, hinside, -⟩ :=
    adds_writeChildren ((s.writeAll front).push delta) style.separator true children
  obtain ⟨closing, hclosing, -⟩ := adds_put
    (((s.writeAll front).push delta).writeChildren style.separator true children).pop
    (style.closing.getD "")
  refine ⟨inside ++ closing, ?_⟩
  rw [hclosing, pop_writeChildren, ← List.append_assoc]
  exact congrArg (· ++ closing) hinside

namespace Fragment

variable {f : Fragment} {cs : List Char}

/-- What a fragment writes from the start of a text begins with certain characters. -/
def StartsWith (f : Fragment) (cs : List Char) : Prop :=
  ∀ s : Sink, s.level = 0 → ∃ rest, (s.write f).written.toList = s.written.toList ++ cs ++ rest

/-- A text starts with its own characters. -/
theorem startsWith_text (t : String) : (text t).StartsWith t.toList := by
  intro s hs
  refine ⟨[], ?_⟩
  rw [List.append_nil, written_write_of_flows (flows_text t) hs, raw_text]

/-- What starts with some characters starts with the first of them. -/
theorem StartsWith.of_prefix {ds : List Char} (hf : f.StartsWith (cs ++ ds)) :
    f.StartsWith cs := by
  intro s hs
  obtain ⟨rest, hrest⟩ := hf s hs
  exact ⟨ds ++ rest, by rw [hrest]; simp only [List.append_assoc]⟩

/-- What stands in front of the children comes first, one fragment after the other. -/
theorem StartsWith.tree (hf : f.StartsWith cs) {front : List Fragment}
    (hfront : ∀ g ∈ front, g.flows = true) (behind children : List Fragment) (style : Style) :
    (tree (front ++ f :: behind) children style).StartsWith (front.flatMap raw ++ cs) := by
  intro s hs
  obtain ⟨rest, hrest⟩ := Sink.exists_written_tree s (front ++ f :: behind) children style
  obtain ⟨more, hmore⟩ := hf (s.writeAll front) ((Sink.frame_writeAll s front).1.trans hs)
  obtain ⟨later, hlater, -⟩ := Sink.adds_writeAll ((s.writeAll front).write f) behind
  refine ⟨more ++ later ++ rest, ?_⟩
  rw [hrest, Sink.writeAll_append, Sink.writeAll, hlater, hmore,
    written_writeAll_of_flows hfront hs]
  simp only [List.append_assoc]

/-- A fragment that starts with a text is finished with that text in front. -/
theorem StartsWith.render (hf : f.StartsWith cs) :
    ∃ rest, f.render.toList = stripLineEnds (cs ++ rest) := by
  obtain ⟨rest, hrest⟩ := hf {} rfl
  refine ⟨rest, ?_⟩
  rw [toList_render]
  exact congrArg stripLineEnds hrest

end Fragment

end Layout

/-! ### The spelling of a type on different nodes -/

/-- Only the answer of a run counts for the answer of what follows. -/
theorem Run.outcome_bind {α β : Type} (r : Run α) (next : α → Run β) :
    (r >>= next).outcome = r.outcome >>= fun a => (next a).outcome := by
  obtain ⟨reports, outcome⟩ := r
  cases outcome <;> rfl

namespace CSharp

/-- A problem is reported on the node that a type is asked for; what is written does not depend on
it. -/
theorem outcome_renderType (m n : Node) (t : Ty) (nullable : Bool) :
    (renderType m.toValue t nullable).outcome = (renderType n.toValue t nullable).outcome := by
  induction hd : t.depth using Nat.strongRecOn generalizing t nullable with | _ depth ih
  subst hd
  cases hu : t.concrete? with
  | none =>
    rw [renderType_of_concrete?_eq_none hu, renderType_of_concrete?_eq_none hu]
    cases unionProblem t <;> rfl
  | some u =>
    have hmember : (memberType m.toValue u).outcome = (memberType n.toValue u).outcome := by
      cases u with
      | map e =>
        rw [memberType, memberType, Run.outcome_bind, Run.outcome_bind,
          ih _ (Ty.depth_lt_of_concrete?_map hu) e false rfl]
      | array e =>
        rw [memberType, memberType, Run.outcome_bind, Run.outcome_bind,
          ih _ (Ty.depth_lt_of_concrete?_array hu) e false rfl]
      | _ => rfl
    rw [renderType_of_concrete? hu, renderType_of_concrete? hu, Run.outcome_bind,
      Run.outcome_bind, hmember]

/-! ### One member, two spellings -/

/-- The one member that counts of the type of an object literal, with its spelling as a type and
with what the literal makes: a struct that is shown by a name, or a map. -/
inductive Names (n : Node) : Ty → String → String → Prop where
  | struct {name aliasName : Data} {w : String} : Ty.shownName name aliasName = .text w →
      w ≠ "object" → '?' ∉ w.toList → Names n (.named name aliasName true) w ("new " ++ w)
  | map {e : Ty} {w : String} : (renderType n.toValue e false).outcome = .ok (.text w) →
      Names n (.map e) ("IDictionary<string, " ++ w ++ ">")
        ("new Dictionary<string, " ++ w ++ ">")

namespace Names

variable {m : Node} {u : Ty} {type head : String}

/-- The spelling of such a type does not end in a mark of its own. -/
theorem getLast?_ne (h : Names m u type head) : type.toList.getLast? ≠ some '?' := by
  cases h with
  | struct _ _ hfree => exact fun hlast => hfree (List.mem_of_getLast? hlast)
  | map _ =>
    rw [getLast?_append (c := '>') (by decide)]
    decide

/-- The spelling of such a type is not the one that says nothing. -/
theorem ne_object (h : Names m u type head) : type ≠ "object" := by
  cases h with
  | struct _ hne _ => exact hne
  | @map e w _ =>
    intro heq
    have hlast := getLast?_append (p := ">") rfl ("IDictionary<string, " ++ w)
    rw [heq] at hlast
    exact absurd hlast (by decide)

/-- On every node, the member is spelled by the first of the two. -/
theorem gives_memberType (h : Names m u type head) (n : Node) :
    (memberType n.toValue u).Gives (· = .text type) := by
  cases h with
  | struct hshown _ _ =>
    refine Run.gives_ofExcept (a := .text type) ?_ rfl
    rw [typeName, hshown, Value.ofData]
  | @map e w hw =>
    have helement := (outcome_renderType n m e false).trans hw
    refine Run.Gives.bind (P := (· = .text w)) ⟨_, helement, rfl⟩ ?_
    rintro _ rfl
    exact Run.gives_ofExcept (a := .text ("IDictionary<string, " ++ w ++ ">")) rfl rfl

end Names

/-- The mark of a type that admits that there is no value. -/
def markOf (t : Ty) : String := if t.members.any Ty.isAbsent then "?" else ""

/-- Dropping the mark gives the spelling again. -/
theorem withoutMarkers_markOf {w : String} (hw : w.toList.getLast? ≠ some '?') (t : Ty) :
    withoutMarkers (w ++ markOf t) = w := by
  have hreverse : w.toList.reverse.dropWhile (· = '?') = w.toList.reverse := by
    rw [List.dropWhile_eq_self_iff]
    intro hlength hmark
    apply hw
    rw [List.getLast?_eq_head?_reverse, List.head?_eq_getElem?, List.getElem?_eq_getElem hlength]
    exact congrArg some (of_decide_eq_true hmark)
  unfold withoutMarkers markOf
  rw [← String.toList_inj, String.toList_ofList, String.toList_append]
  split
  · show (List.reverse (w.toList ++ ['?']) |>.dropWhile (· = '?')).reverse = _
    rw [List.reverse_append, List.reverse_singleton, List.singleton_append,
      List.dropWhile_cons_of_pos (by simp), hreverse, List.reverse_reverse]
  · show (List.reverse (w.toList ++ []) |>.dropWhile (· = '?')).reverse = _
    rw [List.append_nil, hreverse, List.reverse_reverse]

/-! ### What the two rules write -/

/-- A variable is declared without an annotation, and initialized with an object literal whose type
is known. -/
structure InitializedBy (checker : Checker) (n m : Node) (t : Ty) : Prop where
  kind : n.kind = .variableDeclaration
  unannotated : n.get .type = .null
  initializer : n.get .initializer = m.toValue
  literal : m.kind = .objectLiteralExpression
  typed : checker.typeOfExpression m.toValue = .ok (some t)

section rules

variable {view : View Flags} {n m : Node} {t u : Ty} {type head : String}

/-- The type of a declaration without an annotation: that of the member that counts, with its mark
if there is one. -/
theorem gives_declaredType_of_names {checker : Checker} (hn : InitializedBy checker n m t)
    (hu : t.concrete? = some u) (hnames : Names m u type head) :
    (declaredTypeText checker n false "var").Gives (· = .text (type ++ markOf t)) := by
  have hdeclared : (declaredType checker n).Gives (· = some t) := by
    unfold declaredType
    rw [hn.unannotated]
    refine Run.gives_bind_ofExcept rfl ?_
    exact Run.gives_ofExcept (by rw [hn.initializer]; exact hn.typed) rfl
  unfold declaredTypeText
  refine hdeclared.bind ?_
  rintro _ rfl
  dsimp only
  rw [renderType_of_concrete? hu, Bool.or_false]
  refine (hnames.gives_memberType n).bind ?_
  rintro _ rfl
  exact Run.gives_ofExcept (markedIf_unmarked hnames.getLast?_ne _) rfl

/-- Neither spelling says nothing, so the type is not left to inference. -/
theorem variableType_of_names (hnames : Names m u type head) (t : Ty) :
    variableType (.text (type ++ markOf t)) = .ok (.text (type ++ markOf t)) := by
  unfold variableType
  dsimp only [Value.text?]
  rw [withoutMarkers_markOf hnames.getLast?_ne, if_neg hnames.ne_object]

/-- An object literal starts with what it makes. -/
theorem gives_literal_of_names {indent : Indent}
    (ht : view.checker.typeOfExpression m.toValue = .ok (some t)) (hu : t.concrete? = some u)
    (hnames : Names m u type head)
    (hparts : (view.convertAll (m.get .properties)).Gives fun _ => True)
    (hpairs : ((amongPairs view).convertAll (m.get .properties)).Gives fun _ => True) :
    (Dispatch.objectLiteral (structLiteral indent) (keyedLiteral indent) (untypedLiteral indent)
      view m).Gives fun f => ∃ parts, f = initializerList indent [.text head] parts := by
  unfold Dispatch.objectLiteral
  refine Run.gives_bind_ofExcept ht ?_
  rw [Option.bind_some, hu]
  cases hnames with
  | struct hshown _ _ =>
    dsimp only
    rw [if_pos (show Ty.isStruct (.named _ _ true) = true from rfl)]
    unfold structLiteral
    refine Run.gives_bind_ofExcept (a := .text type) (by rw [typeName, hshown, Value.ofData]) ?_
    refine Run.gives_bind_ofExcept rfl ?_
    exact hparts.bind fun parts _ => Run.gives_pure ⟨parts, rfl⟩
  | @map e w hw =>
    show (keyedLiteral indent (some e) view m).Gives _
    unfold keyedLiteral
    refine Run.Gives.bind (P := (· = .text w)) ⟨_, hw, rfl⟩ ?_
    rintro _ rfl
    refine hpairs.bind fun parts _ => ?_
    exact Run.gives_bind_ofExcept rfl (Run.gives_pure ⟨parts, rfl⟩)

end rules

/-! ### Declarations -/

/-- A declaration starts with the spelling of a type, and the object literal that it is initialized
with by what the literal makes: in the output for every context, and in the texts. -/
structure DeclaresLiteral (options : List (String × Data)) (o : Target.Options) (checker : Checker)
    (n m : Node) (type head : String) : Prop where
  output : ∀ c, HasClassName c → ∃ name parts,
    ((backend o.indent o.preferStruct).convert checker c n.toValue).outcome =
      .ok (line [.text type, .text " ", name, .text " = ",
        initializerList o.indent [.text head] parts, .text ";"]) ∧
    ((backend o.indent o.preferStruct).convert checker { c with preferStruct := .bool false }
      m.toValue).outcome = .ok (initializerList o.indent [.text head] parts)
  text : ∃ s text, (n.get .name).property .text = .ok (.text s) ∧
    Target.text options checker n.toValue = .ok text ∧
    Text.Opens text (type ++ " " ++ localName s ++ " = " ++ head ++ " \x7b")
  literal : ∃ text, Target.text options checker m.toValue = .ok text ∧
    Text.Opens text (head ++ " \x7b")

section declared

variable {indent : Indent} {checker : Checker} {n m : Node} {t u : Ty} {type head : String}

/-- A literal starts with what it makes and a brace. -/
theorem startsWith_initializerList (indent : Indent) (head : String) (parts : List Fragment) :
    (initializerList indent [.text head] parts).StartsWith (head ++ " \x7b").toList := by
  have hhead : ∀ g ∈ [Fragment.text head], g.flows = true := by simp
  have hopening (rest : String) : (Fragment.text (" \x7b" ++ rest)).StartsWith " \x7b".toList := by
    have hstarts := Layout.Fragment.startsWith_text (" \x7b" ++ rest)
    rw [String.toList_append] at hstarts
    exact hstarts.of_prefix
  unfold initializerList
  split
  · simpa [row] using (hopening " \x7d").tree hhead [] [] {}
  · simpa using (hopening " ").tree hhead [] parts
      { indent, separator := some ", ", closing := some " \x7d" }

/-- So does a declaration with the type, the name and what the literal makes. -/
theorem startsWith_declaration (indent : Indent) (type name head : String)
    (parts : List Fragment) :
    (line [.text type, .text " ", row [.text name], .text " = ",
      initializerList indent [.text head] parts, .text ";"]).StartsWith
        (type ++ " " ++ name ++ " = " ++ head ++ " \x7b").toList := by
  have hfront : ∀ g ∈ [.text type, .text " ", row [.text name], .text " = "], g.flows = true := by
    simp [Layout.Fragment.flows_row_text]
  have hstarts := (startsWith_initializerList indent head parts).tree hfront [.text ";"] []
    { fresh := true }
  simpa [Layout.Fragment.raw_row_text, line] using hstarts

/-- The properties of an object literal are converted in every context. -/
theorem gives_properties (hindent : indent.isWhole = true) (preferStruct : Data)
    (hchecker : checker.IsTabled) (hm : m.IsProgram) (hk : m.kind = .objectLiteralExpression)
    {c : Flags} (hc : HasClassName c) :
    (((backend indent preferStruct).view checker c).convertAll (m.get .properties)).Gives
      fun _ => True := by
  obtain ⟨vs, hvs, hall⟩ :=
    Node.many_of_all (fun _ h => h) hm (f := .properties) (by rw [hk]; rfl)
  have hplain : ∀ v ∈ vs, (((backend indent preferStruct).view checker c).convert v).Gives
      fun f => f.isPlain = true := by
    intro v hv
    obtain ⟨p, rfl, hp, hkind⟩ := hall v hv
    have hinner : ∀ k ∈ Kind.assignments, k ∉ Kind.inner := by decide
    exact gives_plain_convert hindent preferStruct ⟨hp, hinner _ hkind⟩ hc hchecker
  exact (View.gives_convertAll hvs hplain).mono fun _ _ => trivial

/-- In every context, the literal starts with what it makes. -/
theorem gives_converted_literal (hindent : indent.isWhole = true) (preferStruct : Data)
    (hchecker : checker.IsTabled)
    (hm : m.IsProgram) (hk : m.kind = .objectLiteralExpression)
    (ht : checker.typeOfExpression m.toValue = .ok (some t)) (hu : t.concrete? = some u)
    (hnames : Names m u type head) {c : Flags} (hc : HasClassName c) :
    ((backend indent preferStruct).convert checker c m.toValue).Gives fun f =>
      f.isPlain = true ∧ ∃ parts, f = initializerList indent [.text head] parts := by
  have hkeyed : HasClassName { c with keyValue := .bool true } := hc
  have hrule : rule? indent m.kind = some (Dispatch.objectLiteral (structLiteral indent)
      (keyedLiteral indent) (untypedLiteral indent)) := by
    rw [hk]
    rfl
  have hrendered : m.IsRendered := ⟨hm, by rw [hk]; decide⟩
  have hplain := gives_plain_convert hindent preferStruct hrendered hc hchecker
  rw [convert_of_rule hrule] at hplain ⊢
  obtain ⟨f, hf, hfplain⟩ := hplain
  have hliteral : (Dispatch.objectLiteral (structLiteral indent) (keyedLiteral indent)
      (untypedLiteral indent) ((backend indent preferStruct).view checker c) m).Gives
        fun f => ∃ parts, f = initializerList indent [.text head] parts :=
    gives_literal_of_names ht hu hnames (gives_properties hindent preferStruct hchecker hm hk hc)
      (gives_properties hindent preferStruct hchecker hm hk hkeyed)
  obtain ⟨g, hg, hgparts⟩ := hliteral
  obtain rfl : f = g := Except.ok.inj (hf.symm.trans hg)
  exact ⟨f, hf, hfplain, hgparts⟩

/-- In every context, the declaration is a line of the type, the name and the literal. -/
theorem gives_converted_declaration (hindent : indent.isWhole = true) (preferStruct : Data)
    (hchecker : checker.IsTabled) (hn : n.IsProgram) (hm : InitializedBy checker n m t)
    (hu : t.concrete? = some u) (hnames : Names m u type head) {c : Flags} (hc : HasClassName c)
    {name : Fragment}
    (hname : ((backend indent preferStruct).convert checker c (n.get .name)).Gives (· = name)) :
    ((backend indent preferStruct).convert checker c n.toValue).Gives fun f => ∃ parts,
      f = line [.text (type ++ markOf t), .text " ", name, .text " = ",
        initializerList indent [.text head] parts, .text ";"] ∧
      ((backend indent preferStruct).convert checker { c with preferStruct := .bool false }
        m.toValue).outcome = .ok (initializerList indent [.text head] parts) := by
  have hrule : rule? indent n.kind = some variableDeclaration := by
    rw [hm.kind]
    rfl
  have hunstruct : HasClassName { c with preferStruct := .bool false } := hc
  obtain ⟨f, hf, -, parts, rfl⟩ := gives_converted_literal hindent preferStruct hchecker
    (hn.of_get hm.initializer) hm.literal hm.typed hu hnames hunstruct
  rw [convert_of_rule hrule]
  unfold variableDeclaration
  refine (gives_declaredType_of_names hm hu hnames).bind ?_
  rintro _ rfl
  refine Run.gives_bind_ofExcept (variableType_of_names hnames t) ?_
  dsimp only
  refine hname.bind ?_
  rintro _ rfl
  rw [hm.initializer, if_neg (by simp [Value.isNull, Node.toValue])]
  refine Run.Gives.bind (P := (· = initializerList indent [.text head] parts)) ⟨_, hf, rfl⟩ ?_
  rintro _ rfl
  exact Run.gives_pure ⟨parts, rfl, hf⟩

/-- The finished text opens with what the output starts with. -/
theorem exists_text_of_startsWith {options : List (String × Data)} {o : Target.Options}
    (hoptions : ∀ option ∈ options, Target.IsOption option)
    (ho : Target.Options.ofMembers options = .ok o) {f : Fragment}
    (hf : ((backend o.indent o.preferStruct).convert checker
      (backend o.indent o.preferStruct).initial n.toValue).outcome = .ok f)
    (hplain : f.isPlain = true) {opening : String} (hstarts : f.StartsWith opening.toList)
    (hends : Text.Ends opening.toList) :
    ∃ text, Target.text options checker n.toValue = .ok text ∧ Text.Opens text opening := by
  obtain ⟨rest, hrest⟩ := hstarts.render
  exact ⟨f.render, Target.text_of_convert hoptions ho hf hplain,
    Text.opens_of_finished hends hrest⟩

/-- An opening brace behind a text is ink at its end. -/
theorem ends_brace (t : String) : Text.Ends (t ++ " \x7b").toList := by
  rw [String.toList_append]
  exact Text.ends_append (by decide) _

/-- Both rules write the two spellings of the member that counts. -/
theorem declaresLiteral_of_names {options : List (String × Data)} {o : Target.Options}
    (hoptions : ∀ option ∈ options, Target.IsOption option)
    (ho : Target.Options.ofMembers options = .ok o) (hchecker : checker.IsTabled)
    (hn : n.IsProgram) (hm : InitializedBy checker n m t) (hu : t.concrete? = some u)
    (hnames : Names m u type head) :
    DeclaresLiteral options o checker n m (type ++ markOf t) head := by
  have hindent : o.indent.isWhole = true := Target.isWhole_of_ofMembers hoptions ho
  obtain ⟨s, hs, hname⟩ :=
    exists_declaredName o.indent o.preferStruct checker hn (by rw [hm.kind]; rfl)
  have declared {c : Flags} (hc : HasClassName c) :=
    gives_converted_declaration hindent o.preferStruct hchecker hn hm hu hnames hc (hname c)
  have hinitial : HasClassName (backend o.indent o.preferStruct).initial := Or.inl rfl
  refine ⟨fun c hc => ?_, ?_, ?_⟩
  · obtain ⟨f, hf, parts, rfl, hvalue⟩ := declared hc
    exact ⟨_, parts, hf, hvalue⟩
  · obtain ⟨f, hf, parts, rfl, -⟩ := declared hinitial
    have hrendered : n.IsRendered := ⟨hn, by rw [hm.kind]; decide⟩
    obtain ⟨g, hg, hplain⟩ := gives_plain_convert hindent o.preferStruct hrendered hinitial hchecker
    obtain rfl := Except.ok.inj (hg.symm.trans hf)
    obtain ⟨text, htext, hopens⟩ := exists_text_of_startsWith hoptions ho hf hplain
      (startsWith_declaration _ _ _ head parts) (ends_brace _)
    rw [spelledName_initial] at hopens
    exact ⟨s, text, hs, htext, hopens⟩
  · obtain ⟨f, hf, hplain, parts, rfl⟩ := gives_converted_literal hindent o.preferStruct hchecker
      (hn.of_get hm.initializer) hm.literal hm.typed hu hnames hinitial
    exact exists_text_of_startsWith hoptions ho hf hplain
      (startsWith_initializerList o.indent head parts) (ends_brace head)

end declared

end CSharp

namespace Target

open CSharp (DeclaresLiteral Names markOf renderType)

/-- A variable that is declared without an annotation and initialized with an object literal is
declared as what the literal makes. If the one member that counts of the literal's type is a struct
that is shown by a name other than `object`, with no mark in it, the declaration starts with that
name and the literal with `new` and that name. If it is a map, they start with the types for
dictionaries, of values of the same type, whatever that is. Where the type of the literal admits
that there is no value, and only there, the type of the variable has a mark behind it. -/
theorem declares_literal {options : List (String × Data)} {o : Options} {checker : Checker}
    {n m : Node} {t u : Ty} (hoptions : ∀ option ∈ options, IsOption option)
    (ho : Options.ofMembers options = .ok o) (hchecker : checker.IsTabled) (hn : n.IsProgram)
    (hk : n.kind = .variableDeclaration) (htype : n.get .type = .null)
    (hm : n.get .initializer = m.toValue) (hmk : m.kind = .objectLiteralExpression)
    (ht : checker.typeOfExpression m.toValue = .ok (some t)) (hu : t.IsSole u) :
    (∀ name aliasName w, u = .named name aliasName true →
      Ty.shownName name aliasName = .text w → w ≠ "object" → '?' ∉ w.toList →
        DeclaresLiteral options o checker n m (w ++ markOf t) ("new " ++ w)) ∧
    ∀ e, u = .map e → ∃ w,
      (∀ k : Node, (renderType k.toValue e false).outcome = .ok (.text w)) ∧
      DeclaresLiteral options o checker n m ("IDictionary<string, " ++ w ++ ">" ++ markOf t)
        ("new Dictionary<string, " ++ w ++ ">") := by
  have hliteral : m.IsProgram := hn.of_get hm
  have hnamed : t.Named anyText := by
    obtain ⟨t?, ht?, hnamed⟩ := (hchecker.knows hliteral).expression
    rw [ht] at ht?
    exact hnamed t (Except.ok.inj ht?).symm
  have hconcrete : t.concrete? = some u := (Ty.concrete?_eq_some_iff hnamed.spelled).2 hu
  have declares {type head : String} (hnames : Names m u type head) :=
    CSharp.declaresLiteral_of_names hoptions ho hchecker hn ⟨hk, htype, hm, hmk, ht⟩ hconcrete
      hnames
  constructor
  · rintro name aliasName w rfl hshown hne hfree
    exact declares (.struct hshown hne hfree)
  · rintro e rfl
    obtain ⟨_, hw, w, rfl, -⟩ := CSharp.gives_renderType CSharp.typeWords_anyText m e
      (hnamed.concrete hconcrete).map false
    exact ⟨w, fun k => (CSharp.outcome_renderType k m e false).trans hw, declares (.map hw)⟩

/-- Tables of rates by name, which may be missing; a rate is a number or has a type of its own. -/
def ratesByName : Ty :=
  .union [.undefined, .map (.union [.primitive (.text "number"), .named (.text "Rate") .null true])]

/-- A table with one rate in it. -/
def rateTable : Node :=
  ⟨.objectLiteralExpression, .unknown, .text "", some ratesByName,
    [.list [.bare .shorthandPropertyAssignment [.bare .identifier [.text "base"]]]]⟩

/-- The declaration of such a table. -/
def rateDeclaration : Node :=
  ⟨.variableDeclaration, .unknown, .text "", none,
    [.bare .identifier [.text "rates"], .null, rateTable.toValue]⟩

/-- The table of rates is declared with a dictionary type and made as a dictionary of the same
values. -/
theorem declares_literal_rates :
    rateDeclaration.IsProgram ∧ rateDeclaration.kind = .variableDeclaration ∧
    rateDeclaration.get .type = .null ∧
    rateDeclaration.get .initializer = rateTable.toValue ∧
    ∃ e, ratesByName.IsSole (.map e) ∧ ∃ w,
      (∀ k : Node, (renderType k.toValue e false).outcome = .ok (.text w)) ∧
      DeclaresLiteral [] {} .recorded rateDeclaration rateTable
        ("IDictionary<string, " ++ w ++ ">" ++ markOf ratesByName)
        ("new Dictionary<string, " ++ w ++ ">") := by
  have hprogram : rateDeclaration.IsProgram := by decide
  have hspelled : ratesByName.Spelled := by
    rw [Ty.spelled_iff]
    decide
  have hsole : ratesByName.IsSole (.map _) := (Ty.concrete?_eq_some_iff hspelled).1 rfl
  have hoptions : ∀ option ∈ ([] : List (String × Data)), IsOption option := by simp
  have hchecker : Checker.recorded.IsTabled := Or.inl rfl
  obtain ⟨-, hmap⟩ := declares_literal hoptions rfl hchecker hprogram rfl rfl rfl rfl rfl hsole
  exact ⟨hprogram, rfl, rfl, rfl, _, hsole, hmap _ rfl⟩

end Target

end CodeSample

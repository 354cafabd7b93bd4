import CodeSample.Proofs.OptionalMarks
import CodeSample.Proofs.ParameterDefaults

/-!
# Parameters that default to null

A parameter without an initial value is written with a null default if an argument may be left out
for it, and its type is spelled with a mark if it is nullable. The two are decided by different
rules, and come out the same. Read off the finished text, the default can only be taken for one
where the name is missing or is written as null itself.

* `suffix_stripLineEnds_iff`: dropping blanks at line ends does not touch how a text ends;
  `suffix_word_iff`: when a text that ends with a word ends with a null default;
* `IsAnnotated.exists_type` is the spelling of the type, `IsAnnotated.outcome_convert` the output,
  and `render_parameter` says how the text of the output ends;
* `LooksDefaulted` are the names and types that are taken for a default, `suffix_undefaulted_iff`
  says that there are no others;
* `Target.ends_null_iff` is the statement for the finished text.
-/

namespace CodeSample

open Layout (Fragment Indent)
open Layout.Sink (stripLineEnds)
open Layout.Fragment (row)

/-! ### How texts end -/

namespace Text

/-- Dropping blanks at line ends drops no line break. -/
theorem newline_mem_stripLineEnds {cs : List Char} (h : '\n' ∈ cs) : '\n' ∈ stripLineEnds cs := by
  induction cs with
  | nil => exact h
  | cons c cs ih =>
    rw [stripLineEnds_cons]
    split
    · rename_i hblank
      rcases List.mem_cons.1 h with rfl | hmem
      · rcases hblank.1 with hc | hc <;> cases hc
      · exact ih hmem
    · rcases List.mem_cons.1 h with rfl | hmem
      · exact List.mem_cons_self
      · exact List.mem_cons_of_mem c (ih hmem)

/-- A text that ends with ink ends, within its last line, as what is left of it. -/
theorem suffix_stripLineEnds_iff {p cs : List Char} (hline : '\n' ∉ p) (hp : Closes p)
    (hends : Closes cs) : p <:+ stripLineEnds cs ↔ p <:+ cs := by
  constructor
  · intro hsuffix
    induction cs with
    | nil => exact hsuffix
    | cons c cs ih =>
      have hrest : Closes cs := fun d hd => hends d (by
        rw [List.getLast?_cons, hd]
        rfl)
      rw [stripLineEnds_cons] at hsuffix
      split at hsuffix
      · exact (ih hrest hsuffix).trans (List.suffix_cons c cs)
      · rcases List.suffix_cons_iff.1 hsuffix with rfl | hlater
        · -- then nothing has been dropped
          have hone : '\n' ∉ cs := fun hmem =>
            hline (List.mem_cons_of_mem c (newline_mem_stripLineEnds hmem))
          simp only [stripLineEnds_line hone hrest, List.suffix_refl]
        · exact (ih hrest hlater).trans (List.suffix_cons c cs)
  · rintro ⟨front, rfl⟩
    have hsuffix := isSuffix_stripLineEnds front p
    rwa [stripLineEnds_line hline hp] at hsuffix

/-- Blanks at the end of a text are dropped. -/
theorem stripLineEnds_concat_space (cs : List Char) :
    stripLineEnds (cs ++ [' ']) = stripLineEnds cs := by
  induction cs with
  | nil => rfl
  | cons c cs ih => rw [List.cons_append, stripLineEnds_cons, stripLineEnds_cons, ih]

/-- Where two texts end with words, and these have blanks in front of them, the words are the same
if the texts are. -/
theorem append_space_inj {cs ds v w : List Char} (hv : ' ' ∉ v) (hw : ' ' ∉ w)
    (h : cs ++ ' ' :: v = ds ++ ' ' :: w) : cs = ds ∧ v = w := by
  rcases List.append_eq_append_iff.1 h with ⟨more, rfl, hmore⟩ | ⟨more, rfl, hmore⟩
  · cases more with
    | nil => exact ⟨(List.append_nil cs).symm, (List.cons.inj hmore).2⟩
    | cons c more =>
      refine absurd ?_ hv
      rw [(List.cons.inj hmore).2]
      simp
  · cases more with
    | nil => exact ⟨List.append_nil ds, (List.cons.inj hmore).2.symm⟩
    | cons c more =>
      refine absurd ?_ hw
      rw [(List.cons.inj hmore).2]
      simp

/-- A text that ends with a word ends with a null default if the word is null and the text in front
of it ends with an equality sign. -/
theorem suffix_word_iff {cs w : List Char} (hw : ' ' ∉ w) :
    " = null".toList <:+ cs ++ ' ' :: w ↔ w = "null".toList ∧ " =".toList <:+ cs := by
  constructor
  · rintro ⟨front, hfront⟩
    have hsplit : (front ++ " =".toList) ++ ' ' :: "null".toList = cs ++ ' ' :: w := by
      rw [← hfront, List.append_assoc]
      rfl
    obtain ⟨rfl, rfl⟩ := append_space_inj (by decide) hw hsplit
    exact ⟨rfl, List.suffix_append _ _⟩
  · rintro ⟨rfl, front, rfl⟩
    exact ⟨front, by rw [List.append_assoc]; rfl⟩

end Text

namespace CSharp

/-! ### Names and types that look like a default -/

/-- Only the name `undefined` is written as null; the name `null` is reserved and escaped. -/
theorem localName_eq_null_iff {s : String} : localName s = "null" ↔ s = "undefined" := by
  unfold localName safeName
  split
  · rename_i hundefined
    exact iff_of_true rfl hundefined
  · rename_i hundefined
    refine iff_of_false (fun hnull => ?_) hundefined
    split at hnull
    · have hhead := congrArg (fun t : String => t.toList.head?) hnull
      simp at hhead
    · rename_i hfree
      subst hnull
      exact hfree (by decide)

/-- The local spelling of a name without white space has none. -/
theorem localName_unspaced {s : String} (hs : Text.isUnspaced s = true) :
    Text.isUnspaced (localName s) = true := by
  unfold localName
  split
  · decide
  · exact isUnspaced_safeName hs

/-- A type and a name that look like a null default, one behind the other: the type has one at its
end and there is no name, or the type has an equality sign at its end and the name is written as
null. -/
def LooksDefaulted (s type : String) : Prop :=
  (s = "" ∧ " = null".toList <:+ (Fragment.text type).render.toList) ∨
    (s = "undefined" ∧ " =".toList <:+ type.toList)

/-- What is left of a type, a name and a null default. -/
theorem suffix_defaulted (cs : List Char) :
    " = null".toList <:+ stripLineEnds (cs ++ " = null".toList) := by
  have hline : '\n' ∉ " = null".toList := by decide
  have hends : Text.Closes " = null".toList := by decide
  have hsuffix := Text.isSuffix_stripLineEnds cs " = null".toList
  rwa [Text.stripLineEnds_line hline hends] at hsuffix

/-- What is left of a type and a name. -/
theorem suffix_undefaulted_iff {s : String} (hs : ∀ c ∈ s.toList, Text.isBlank c = false)
    (type : String) :
    " = null".toList <:+ stripLineEnds (type.toList ++ ' ' :: (localName s).toList) ↔
      LooksDefaulted s type := by
  unfold LooksDefaulted
  by_cases hempty : s = ""
  · subst hempty
    have hnone : (localName "").toList = [] := by decide
    rw [hnone, Text.stripLineEnds_concat_space, Layout.Fragment.toList_render,
      Layout.Fragment.raw_text]
    simp
  · have hunspaced : Text.isUnspaced s = true := by
      refine Text.isUnspaced_iff.2 ⟨hempty, fun c hc => ?_⟩
      simp [hs c hc]
    have hword := localName_unspaced hunspaced
    have hspace : ' ' ∉ (localName s).toList := fun hmem =>
      absurd ((Text.isUnspaced_iff.1 hword).2 _ hmem) (by decide)
    have hends : Text.Closes (type.toList ++ ' ' :: (localName s).toList) := by
      rw [List.append_cons]
      exact Text.closes_of_ends (Text.ends_append (Text.isFramed_of_isUnspaced hword).ends _)
    rw [Text.suffix_stripLineEnds_iff (by decide) (by decide) hends, Text.suffix_word_iff hspace,
      String.toList_inj, localName_eq_null_iff]
    simp [hempty]

/-! ### Parameters with an annotation -/

section annotated

variable {checker : Checker} {n a : Node} {t u : Ty} {b : Bool}

/-- A parameter without an initial value, with an annotation that stands for a type. -/
structure IsAnnotated (checker : Checker) (n a : Node) (t : Ty) (b : Bool) : Prop where
  kind : n.kind = .parameter
  initializer : n.get .initializer = .null
  type : n.get .type = a.toValue
  resolved : checker.typeOfAscription a.toValue = .ok (some t)
  questionToken : n.get .questionToken = .bool b

/-- An argument may be left out if the parameter has a question mark or its type admits that there
is no value. -/
theorem IsAnnotated.omissible_iff (h : IsAnnotated checker n a t b) :
    Omissible checker n ↔ b = true ∨ ∃ v ∈ t.members, v.isAbsent = true := by
  have hascribed : checker.ascribed? (n.get .type) = .ok (some t) := by
    rw [h.type]
    exact h.resolved
  unfold Omissible
  rw [hascribed, h.initializer, h.questionToken]
  simp [Value.truthy]

/-- The type is spelled with a mark at its end in the same cases. -/
theorem IsAnnotated.exists_type (h : IsAnnotated checker n a t b) (ht : t.Spelled)
    (hleaves : ∀ v ∈ t.leaves, Unmarked v) (hu : t.IsSole u) :
    ∃ type, (renderAscription checker (n.get .type) b "void").outcome = .ok (.text type) ∧
      (parameterType checker n).outcome = .ok (.text type) ∧
      (type.toList.getLast? = some '?' ↔ b = true ∨ ∃ v ∈ t.members, v.isAbsent = true) := by
  obtain ⟨reports, w, -, hlast, hmarked⟩ := exists_renderType_marked ht hleaves hu a
  have hrendered : (renderAscription checker (n.get .type) b "void").outcome =
      .ok (.text (w ++ if t.admitsAbsent || b then "?" else "")) := by
    unfold renderAscription
    rw [h.type, if_neg (by simp [Value.isNull, Node.toValue]), h.resolved]
    exact congrArg Run.outcome (hmarked b)
  refine ⟨_, hrendered, ?_, ?_⟩
  · have hthere : (n.get .type).isNull = false := by
      rw [h.type]
      rfl
    unfold parameterType
    rw [h.initializer, h.questionToken, hthere]
    exact hrendered
  · have hmark : (t.admitsAbsent || b) = true ↔ b = true ∨ ∃ v ∈ t.members, v.isAbsent = true := by
      rw [Bool.or_eq_true, or_comm, Ty.admitsAbsent, List.any_eq_true]
    rw [← hmark]
    cases t.admitsAbsent || b with
    | true => exact iff_of_true (getLast?_append (by decide) w) rfl
    | false => exact iff_of_false (by simpa using hlast) Bool.false_ne_true

/-- What is written for the parameter: the type, the name, and a null default if the type is spelled
with a mark. -/
theorem IsAnnotated.outcome_convert (h : IsAnnotated checker n a t b) {indent : Indent}
    (hindent : indent.isWhole = true) (preferStruct : Data) (hchecker : checker.IsTabled)
    (hn : n.IsProgram) {type : String}
    (htype : (parameterType checker n).outcome = .ok (.text type))
    (hmark : Omissible checker n ↔ type.toList.getLast? = some '?') {c : Flags}
    (hc : HasClassName c) {name : Fragment}
    (hname : ((backend indent preferStruct).convert checker c (n.get .name)).Gives (· = name)) :
    ((backend indent preferStruct).convert checker c n.toValue).outcome =
      .ok (row ([.text type, .text " ", name] ++
        if type.toList.getLast? = some '?' then [.text " = ", .text "null"] else [])) := by
  have hrendered : n.IsRendered := ⟨hn, by rw [h.kind]; decide⟩
  obtain ⟨f, hf, -⟩ := gives_plain_convert hindent preferStruct hrendered hc hchecker
  obtain ⟨v, x, default, hv, hx, hdefault, rfl⟩ := ensures_parameter h.kind f hf
  obtain rfl : v = .text type := Except.ok.inj (hv.symm.trans htype)
  obtain rfl : x = name := by
    obtain ⟨y, hy, rfl⟩ := hname
    exact Except.ok.inj (hx.symm.trans hy)
  cases hdefault with
  | none hnot =>
    rw [if_neg fun hlast => hnot (hmark.2 hlast)]
    exact hf
  | null homissible _ =>
    rw [if_pos (hmark.1 homissible)]
    exact hf
  | value hinitializer _ => exact absurd h.initializer hinitializer

end annotated

/-! ### The finished text -/

/-- What a type, a name and what stands behind them are finished to. -/
theorem toList_render_parameter (type name : String) (default : List Fragment)
    (hdefault : ∀ f ∈ default, f.flows = true) :
    (row ([.text type, .text " ", row [.text name]] ++ default)).isPlain = true ∧
      (row ([.text type, .text " ", row [.text name]] ++ default)).render.toList =
        stripLineEnds
          (type.toList ++ ' ' :: name.toList ++ default.flatMap Layout.Fragment.raw) := by
  have hall : ∀ f ∈ [.text type, .text " ", row [.text name]] ++ default, f.flows = true :=
    List.forall_mem_append.2 ⟨by simp [Layout.Fragment.flows_row_text], hdefault⟩
  refine ⟨Layout.Fragment.isPlain_of_flows (Layout.Fragment.flows_row hall false), ?_⟩
  rw [Layout.Fragment.toList_render]
  refine congrArg stripLineEnds ((Layout.Fragment.raw_row hall false).trans ?_)
  simp [Layout.Fragment.raw_row_text]

/-- The finished text of a parameter ends with a null default if the type is spelled with a mark, or
the type and the name look like one. -/
theorem render_parameter {s : String} (hs : ∀ c ∈ s.toList, Text.isBlank c = false)
    (type : String) :
    let f := row ([.text type, .text " ", row [.text (localName s)]] ++
      if type.toList.getLast? = some '?' then [.text " = ", .text "null"] else [])
    f.isPlain = true ∧ (" = null".toList <:+ f.render.toList ↔
      type.toList.getLast? = some '?' ∨ LooksDefaulted s type) := by
  dsimp only
  by_cases hlast : type.toList.getLast? = some '?'
  · rw [if_pos hlast]
    obtain ⟨hplain, hrender⟩ := toList_render_parameter type (localName s)
      [.text " = ", .text "null"] (by simp)
    refine ⟨hplain, iff_of_true ?_ (Or.inl hlast)⟩
    rw [hrender]
    exact suffix_defaulted _
  · rw [if_neg hlast]
    obtain ⟨hplain, hrender⟩ := toList_render_parameter type (localName s) [] (by simp)
    refine ⟨hplain, ?_⟩
    rw [hrender, List.flatMap_nil, List.append_nil, suffix_undefaulted_iff hs]
    exact (or_iff_right hlast).symm

/-- The names of the builtin types have no marks at their ends. -/
theorem unmarked_primitive {s : String} (hs : s ∈ builtinTypes.map Prod.fst) :
    Unmarked (.primitive (.text s)) where
  known := by
    rintro (h | ⟨_, h, hunknown⟩)
    · cases h
    · cases h
      exact hunknown hs
  free := fun _ _ _ h => by cases h

/-- The parameters here are annotated with their types. -/
theorem isAnnotated_parameterOf (s : String) (t : Ty) :
    IsAnnotated .recorded (parameterOf s t) (annotationOf t) t false :=
  ⟨rfl, rfl, rfl, rfl, rfl⟩

/-- The leaves of a number or null have no marks at their ends. -/
theorem unmarked_numberOrNull : ∀ v ∈ numberOrNull.leaves, Unmarked v := by
  have hleaves : numberOrNull.leaves = [.primitive (.text "number"), .null] := by decide
  rw [hleaves, List.forall_mem_cons, List.forall_mem_singleton]
  exact ⟨unmarked_primitive (by decide), unmarked_primitive (by decide)⟩

/-- A type whose name looks like the front of a default. -/
def equation : Ty := .named (.text "T =") .null false

/-- The type whose name ends in an equality sign has no mark at its end. -/
theorem unmarked_equation : ∀ v ∈ equation.leaves, Unmarked v := by
  have hleaves : equation.leaves = [equation] := by decide
  rw [hleaves, List.forall_mem_singleton]
  refine ⟨?_, fun name aliasName _ hnamed s hs => ?_⟩
  · rintro (h | ⟨_, h, -⟩) <;> cases h
  · cases hnamed
    rcases hs with h | h
    · cases h
      decide
    · cases h

/-- A parameter that is named by the missing value. -/
def nameless : Node := parameterOf "undefined" equation

end CSharp

namespace Target

open CSharp (HasClassName LooksDefaulted Unmarked renderAscription)

/-- The text of a parameter without an initial value, with an annotation that stands for a type with
one member that counts and names without marks, and a name without white space. The type is spelled
with a mark at its end if and only if the parameter has a question mark or a member of the type is
absent. The output has a null default in the same cases, and the text ends with one in no others,
but for names and types that look like one. -/
theorem ends_null_iff {options : List (String × Data)} {o : Options} {checker : Checker}
    {n a : Node} {t u : Ty} {b : Bool} {s : String}
    (hoptions : ∀ option ∈ options, IsOption option) (ho : Options.ofMembers options = .ok o)
    (hchecker : checker.IsTabled) (hn : n.IsProgram)
    (hannotated : CSharp.IsAnnotated checker n a t b) (hu : t.IsSole u)
    (hleaves : ∀ v ∈ t.leaves, Unmarked v) (hs : (n.get .name).property .text = .ok (.text s))
    (hblank : ∀ c ∈ s.toList, Text.isBlank c = false) :
    ∃ type text,
      (renderAscription checker (n.get .type) b "void").outcome = .ok (.text type) ∧
      Target.text options checker n.toValue = .ok text ∧
      (type.toList.getLast? = some '?' ↔ b = true ∨ ∃ v ∈ t.members, v.isAbsent = true) ∧
      (∀ c, HasClassName c → ∃ name,
        ((CSharp.backend o.indent o.preferStruct).convert checker c (n.get .name)).outcome =
          .ok name ∧
        ((CSharp.backend o.indent o.preferStruct).convert checker c n.toValue).outcome =
          .ok (row ([.text type, .text " ", name] ++
            if type.toList.getLast? = some '?' then [.text " = ", .text "null"] else []))) ∧
      (" = null".toList <:+ text.toList ↔
        type.toList.getLast? = some '?' ∨ LooksDefaulted s type) := by
  have hindent : o.indent.isWhole = true := isWhole_of_ofMembers hoptions ho
  have hspelled : t.Spelled := by
    obtain ⟨t?, ht?, hnamed⟩ := (hchecker.knows (hn.of_get hannotated.type)).ascription
    rw [hannotated.resolved] at ht?
    exact (hnamed t (Except.ok.inj ht?).symm).spelled
  obtain ⟨type, hrendered, htype, hmark⟩ := hannotated.exists_type hspelled hleaves hu
  have homissible : CSharp.Omissible checker n ↔ type.toList.getLast? = some '?' :=
    hannotated.omissible_iff.trans hmark.symm
  obtain ⟨s', hs', hname⟩ := CSharp.exists_declaredName o.indent o.preferStruct checker hn
    (by rw [hannotated.kind]; rfl)
  obtain rfl : s' = s := Value.text.inj (Except.ok.inj (hs'.symm.trans hs))
  have houtput (c : CSharp.Flags) (hc : HasClassName c) :=
    hannotated.outcome_convert hindent o.preferStruct hchecker hn htype homissible hc (hname c)
  have hinitial := houtput (CSharp.backend o.indent o.preferStruct).initial (Or.inl rfl)
  rw [CSharp.spelledName_initial] at hinitial
  obtain ⟨hplain, hends⟩ := CSharp.render_parameter hblank type
  refine ⟨type, _, hrendered, text_of_convert hoptions ho hinitial hplain, hmark,
    fun c hc => ?_, hends⟩
  obtain ⟨name, hgiven, rfl⟩ := hname c
  exact ⟨_, hgiven, houtput c hc⟩

/-- A bound that may be null is written with a mark and with a default, and the two agree. -/
theorem ends_null_iff_lowerBound :
    CSharp.lowerBound.IsProgram ∧
    CSharp.IsAnnotated .recorded CSharp.lowerBound (CSharp.annotationOf CSharp.numberOrNull)
      CSharp.numberOrNull false ∧
    CSharp.numberOrNull.IsSole (.primitive (.text "number")) ∧
    (∀ v ∈ CSharp.numberOrNull.leaves, Unmarked v) ∧
    ∃ type text,
      (renderAscription .recorded (CSharp.lowerBound.get .type) false "void").outcome =
        .ok (.text type) ∧
      Target.text [] .recorded CSharp.lowerBound.toValue = .ok text ∧
      (type.toList.getLast? = some '?' ↔
        false = true ∨ ∃ v ∈ CSharp.numberOrNull.members, v.isAbsent = true) ∧
      (" = null".toList <:+ text.toList ↔
        type.toList.getLast? = some '?' ∨ LooksDefaulted "low" type) := by
  have hprogram : CSharp.lowerBound.IsProgram := by decide
  have hannotated := CSharp.isAnnotated_parameterOf "low" CSharp.numberOrNull
  have hspelled : CSharp.numberOrNull.Spelled := by
    rw [Ty.spelled_iff]
    decide
  have hsole : CSharp.numberOrNull.IsSole (.primitive (.text "number")) :=
    (Ty.concrete?_eq_some_iff hspelled).1 (by decide)
  obtain ⟨type, text, htype, htext, hmark, -, hends⟩ :=
    ends_null_iff (List.forall_mem_nil IsOption) rfl (Or.inl rfl) hprogram hannotated hsole
      CSharp.unmarked_numberOrNull rfl (by simp [Text.isBlank])
  exact ⟨hprogram, hannotated, hsole, CSharp.unmarked_numberOrNull, type, text, htype, htext,
    hmark, hends⟩

/-- A parameter named `undefined` is written as null, behind a type that may end with an equality
sign. The text ends with a null default, though the type has no mark and no member of it is
absent. -/
theorem ends_null_undefined :
    CSharp.nameless.IsProgram ∧
    CSharp.IsAnnotated .recorded CSharp.nameless (CSharp.annotationOf CSharp.equation)
      CSharp.equation false ∧
    CSharp.equation.IsSole CSharp.equation ∧ (∀ v ∈ CSharp.equation.leaves, Unmarked v) ∧
    ∃ type text,
      (renderAscription .recorded (CSharp.nameless.get .type) false "void").outcome =
        .ok (.text type) ∧
      Target.text [] .recorded CSharp.nameless.toValue = .ok text ∧
      ¬(" = null".toList <:+ text.toList ↔ type.toList.getLast? = some '?') ∧
      ¬(" = null".toList <:+ text.toList ↔
        false = true ∨ ∃ v ∈ CSharp.equation.members, v.isAbsent = true) := by
  have htype : (renderAscription .recorded (CSharp.nameless.get .type) false "void").outcome =
      .ok (.text "T =") := by cbv
  have htext : Target.text [] .recorded CSharp.nameless.toValue = .ok "T = null" := by
    decide +kernel
  exact ⟨by decide, CSharp.isAnnotated_parameterOf "undefined" CSharp.equation,
    Or.inl ⟨rfl, rfl⟩, CSharp.unmarked_equation, "T =", "T = null", htype, htext, by decide,
    by decide⟩

end Target

end CodeSample

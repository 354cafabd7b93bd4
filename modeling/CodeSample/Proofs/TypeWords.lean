import CodeSample.Proofs.Gives
import CodeSample.Proofs.Grammar
import CodeSample.Target.CSharp

/-!
# What is written for a type

Every type whose names are texts has a spelling in C#, and it is made of those names and of a few
words of the target language.

* `TypeWords` says that a property of texts holds of the words for types and is kept by the ways in
  which types are put together; `Ty.Named` says that the names in a type have the property;
* `Checker.Answers` says that a checker has an answer about a node, with such types;
* `gives_renderType`, `gives_renderAscription`, `gives_declaredTypeText`, `gives_parameterType`:
  then what is written for a type, for an annotation, for a declaration and for a parameter has the
  property too.
-/

namespace CodeSample

/-- The names in a type are texts with a property. -/
def Ty.Named (Q : String → Prop) (t : Ty) : Prop := ∀ d ∈ t.names, ∃ s, d = .text s ∧ Q s

/-- A value is a text with a property. -/
def Value.IsWord (Q : String → Prop) (v : Value) : Prop := ∃ s, v = .text s ∧ Q s

namespace Ty.Named

variable {Q : String → Prop} {t u : Ty}

/-- A type whose names are words has a spelling. -/
theorem spelled (h : t.Named Q) : t.Spelled := by
  rw [spelled_iff]
  intro d hd
  obtain ⟨s, rfl, -⟩ := h d hd
  rfl

/-- The one member of a type whose names are words has such names. -/
theorem concrete (h : t.Named Q) (hu : t.concrete? = some u) : u.Named Q :=
  fun d hd => h d (names_of_concrete? hu d hd)

/-- The element type of an array whose names are words has such names. -/
theorem array (h : (Ty.array t).Named Q) : t.Named Q := fun d hd => h d (by rwa [names])

/-- The element type of a map whose names are words has such names. -/
theorem map (h : (Ty.map t).Named Q) : t.Named Q := fun d hd => h d (by rwa [names])

/-- The name by which a user-declared type is shown is one of its names. -/
theorem shownName {name aliasName : Data} {struct : Bool}
    (h : (Ty.named name aliasName struct).Named Q) :
    ∃ s, Ty.shownName name aliasName = .text s ∧ Q s := by
  refine h _ ?_
  unfold Ty.shownName
  by_cases htruthy : aliasName.truthy = true
  · have hnull : aliasName ≠ .null := by
      rintro rfl
      cases htruthy
    simp [names, htruthy, hnull]
  · simp [names, htruthy]

end Ty.Named

namespace CSharp

/-- A property of texts that the words for types have, and that is kept where types are put
together. -/
structure TypeWords (Q : String → Prop) : Prop where
  /-- The words that stand for types. -/
  word : ∀ s ∈ [unknownType, unsupportedType, "var", "void", "object"] ++ builtinTypes.map Prod.snd,
    Q s
  marker : ∀ s, Q s → Q (withOptionalMarker s)
  array : ∀ s, Q s → Q (s ++ "[]")
  dictionary : ∀ s, Q s → Q ("IDictionary<string, " ++ s ++ ">")

namespace TypeWords

variable {Q : String → Prop}

/-- The C# name of a builtin type is a word. -/
theorem builtinName (hQ : TypeWords Q) (s : String) : Q (builtinName s) := by
  refine hQ.word _ ?_
  unfold CSharp.builtinName
  cases h : builtinTypes.lookup s with
  | none => simp
  | some w =>
    have : w ∈ builtinTypes.map Prod.snd := by
      obtain ⟨l₁, l₂, hl, -⟩ := List.lookup_eq_some_iff.1 h
      rw [hl]
      simp
    exact List.mem_append_right _ this

end TypeWords

variable {Q : String → Prop} {n : Node} {t : Ty}

/-! ### Types -/

/-- The name of a type is a word if the names in it are, by cases on the type and along its
elements. -/
theorem isWord_typeName (hQ : TypeWords Q) (h : t.Named Q) :
    ∃ s, typeName t = .ok (.text s) ∧ Q s := by
  cases t with
  | named name aliasName struct =>
    obtain ⟨s, hs, hq⟩ := h.shownName
    exact ⟨s, by rw [typeName, hs, Value.ofData], hq⟩
  | primitive name =>
    obtain ⟨s, rfl, -⟩ := h name (by simp [Ty.names])
    exact ⟨builtinName s, rfl, hQ.builtinName s⟩
  | _ => exact ⟨unknownType, rfl, hQ.word _ (by simp)⟩

/-- A word with the mark of a nullable type is a word. -/
theorem markedIf_text (hQ : TypeWords Q) (nullable : Bool) {s : String} (h : Q s) :
    ∃ t, markedIf nullable (.text s) = .ok (.text t) ∧ Q t := by
  cases nullable with
  | false => exact ⟨s, rfl, h⟩
  | true => exact ⟨withOptionalMarker s, rfl, hQ.marker s h⟩

/-- There is a message about a union whose names are words. -/
theorem unionProblem_ok (h : t.Named Q) : ∃ s, unionProblem t = .ok s :=
  ⟨_, by rw [unionProblem, Ty.describe_of_spelled t h.spelled]⟩

/-- Every type whose names are words is written as a word. -/
theorem gives_renderType (hQ : TypeWords Q) (n : Node) (t : Ty) (h : t.Named Q) (nullable : Bool) :
    (renderType n.toValue t nullable).Gives (Value.IsWord Q) := by
  induction hd : t.depth using Nat.strongRecOn generalizing t nullable with | _ depth ih
  subst hd
  unfold renderType
  split
  · -- a union without a single member that is there
    obtain ⟨s, hs⟩ := unionProblem_ok h
    refine Run.gives_bind_ofExcept hs ?_
    refine (Run.gives_report n _).bind fun _ _ => Run.gives_pure ?_
    exact ⟨unsupportedType, rfl, hQ.word _ (by simp)⟩
  · rename_i e he
    refine (ih _ (Ty.depth_lt_of_concrete?_map he) e (h.concrete he).map false rfl).bind ?_
    rintro _ ⟨s, rfl, hs⟩
    obtain ⟨w, hw, hq⟩ := markedIf_text hQ (t.admitsAbsent || nullable) (hQ.dictionary s hs)
    exact Run.gives_bind_ofExcept rfl (Run.gives_ofExcept hw ⟨w, rfl, hq⟩)
  · rename_i e he
    refine (ih _ (Ty.depth_lt_of_concrete?_array he) e (h.concrete he).array false rfl).bind ?_
    rintro _ ⟨s, rfl, hs⟩
    obtain ⟨w, hw, hq⟩ := markedIf_text hQ (t.admitsAbsent || nullable) (hQ.array s hs)
    exact Run.gives_bind_ofExcept rfl (Run.gives_ofExcept hw ⟨w, rfl, hq⟩)
  · rename_i u _ _ hu
    obtain ⟨s, hs, hq⟩ := isWord_typeName hQ (h.concrete hu)
    obtain ⟨w, hw, hq⟩ := markedIf_text hQ (t.admitsAbsent || nullable) hq
    exact Run.gives_bind_ofExcept hs (Run.gives_ofExcept hw ⟨w, rfl, hq⟩)

end CSharp

/-! ### Checkers -/

namespace Checker

variable {Q : String → Prop}

/-- A node that has a source text, and about which a checker has an answer with types whose names
are words. -/
structure Knows (checker : Checker) (Q : String → Prop) (n : Node) : Prop where
  source : ∃ s, n.toValue.sourceText = .ok (.text s)
  ascription : ∃ t?, checker.typeOfAscription n.toValue = .ok t? ∧ ∀ t ∈ t?, t.Named Q
  expression : ∃ t?, checker.typeOfExpression n.toValue = .ok t? ∧ ∀ t ∈ t?, t.Named Q

/-- Null, or a node that a checker knows. -/
def KnowsIfAny (checker : Checker) (Q : String → Prop) (v : Value) : Prop :=
  v = .null ∨ ∃ m : Node, v = m.toValue ∧ checker.Knows Q m

variable {checker : Checker} {n : Node} {v : Value}

/-- The checker that answers from the nodes knows a node whose own type has words as names. -/
theorem knows_recorded (hsource : ∃ s, n.toValue.sourceText = .ok (.text s))
    (htype : ∀ t ∈ n.type?, t.Named Q) : recorded.Knows Q n :=
  ⟨hsource, ⟨n.type?, rfl, htype⟩, ⟨n.type?, rfl, htype⟩⟩

/-- Looking a node up in a table of types with words for names gives such a type or none. -/
theorem lookUp_ok {table : List (String × Ty)} (htable : ∀ x ∈ table, x.2.Named Q)
    (hsource : ∃ s, n.toValue.sourceText = .ok (.text s)) (htype : ∀ t ∈ n.type?, t.Named Q) :
    ∃ t?, lookUp table n.toValue = .ok t? ∧ ∀ t ∈ t?, t.Named Q := by
  obtain ⟨s, hs⟩ := hsource
  refine ⟨(table.lookup s).or n.type?, ?_, ?_⟩
  · rw [lookUp, hs]
    rfl
  · intro t ht
    cases h : table.lookup s with
    | none =>
      rw [h, Option.none_or] at ht
      exact htype t ht
    | some u =>
      rw [h, Option.some_or, Option.mem_some_iff] at ht
      subst ht
      obtain ⟨l₁, l₂, hl, -⟩ := List.lookup_eq_some_iff.1 h
      exact htable (s, u) (by simp [hl])

/-- So does a checker with tables of types whose names are words. -/
theorem knows_ofTables {ascriptions expressions : List (String × Ty)}
    (hascriptions : ∀ x ∈ ascriptions, x.2.Named Q)
    (hexpressions : ∀ x ∈ expressions, x.2.Named Q)
    (hsource : ∃ s, n.toValue.sourceText = .ok (.text s)) (htype : ∀ t ∈ n.type?, t.Named Q) :
    (ofTables ascriptions expressions).Knows Q n :=
  ⟨hsource, lookUp_ok hascriptions hsource htype, lookUp_ok hexpressions hsource htype⟩

namespace KnowsIfAny

/-- A checker that knows an annotation has a type with words for names for it, or none. -/
theorem ascribed? (h : checker.KnowsIfAny Q v) :
    ∃ t?, checker.ascribed? v = .ok t? ∧ ∀ t ∈ t?, t.Named Q := by
  rcases h with rfl | ⟨m, rfl, h⟩
  · exact ⟨none, rfl, by simp⟩
  · exact h.ascription

/-- A checker that knows an initializer has a type with words for names for it, or none. -/
theorem inferred? (h : checker.KnowsIfAny Q v) :
    ∃ t?, checker.inferred? v = .ok t? ∧ ∀ t ∈ t?, t.Named Q := by
  rcases h with rfl | ⟨m, rfl, h⟩
  · exact ⟨none, rfl, by simp⟩
  · exact h.expression

end KnowsIfAny

end Checker

/-! ### Annotations and declarations -/

namespace CSharp

variable {Q : String → Prop} {checker : Checker} {n : Node}

/-- An annotation that is not resolved is reported. -/
theorem gives_reportUnresolved (hQ : TypeWords Q)
    (hsource : ∃ s, n.toValue.sourceText = .ok (.text s)) :
    (reportUnresolved n.toValue).Gives (Value.IsWord Q) := by
  obtain ⟨s, hs⟩ := hsource
  unfold reportUnresolved
  refine Run.gives_bind_ofExcept hs ?_
  have hwritten : ∃ w, (Value.text s).orElse (.text "<unknown>") = .text w := by
    unfold Value.orElse
    split <;> exact ⟨_, rfl⟩
  obtain ⟨w, hw⟩ := hwritten
  have hw : unresolvedProblem (.text s) = .ok ("Unable to resolve type annotation: " ++ w) := by
    rw [unresolvedProblem, hw]
    rfl
  refine Run.gives_bind_ofExcept hw ?_
  refine (Run.gives_report n _).bind fun _ _ => Run.gives_pure ?_
  exact ⟨unknownType, rfl, hQ.word _ (by simp)⟩

/-- What is written for an annotation. -/
theorem gives_renderAscription (hQ : TypeWords Q) {v : Value} (hv : checker.KnowsIfAny Q v)
    (nullable : Bool) {missing : String} (hmissing : Q missing) :
    (renderAscription checker v nullable missing).Gives (Value.IsWord Q) := by
  unfold renderAscription
  rcases hv with rfl | ⟨m, rfl, h⟩
  · exact Run.gives_pure ⟨missing, rfl, hmissing⟩
  · rw [if_neg (by simp [Value.isNull, Node.toValue])]
    obtain ⟨t?, ht, hnamed⟩ := h.ascription
    refine Run.gives_bind_ofExcept ht ?_
    cases t? with
    | none => exact gives_reportUnresolved hQ h.source
    | some t => exact gives_renderType hQ m t (hnamed t rfl) nullable

/-- What is written for the type of a parameter. -/
theorem gives_parameterType (hQ : TypeWords Q) (htype : checker.KnowsIfAny Q (n.get .type))
    (hinitializer : checker.KnowsIfAny Q (n.get .initializer)) :
    (parameterType checker n).Gives (Value.IsWord Q) := by
  unfold parameterType
  obtain ⟨inferred, hinferred, hnamed⟩ := hinitializer.inferred?
  refine Run.gives_bind_ofExcept hinferred ?_
  dsimp only
  split
  · cases inferred with
    | none => exact Run.gives_pure ⟨"object", rfl, hQ.word _ (by simp)⟩
    | some t => exact gives_renderType hQ n t (hnamed t rfl) _
  · exact gives_renderAscription hQ htype _ (hQ.word _ (by simp))

/-- The type of a declaration, if one is found. -/
theorem gives_declaredType (hQ : TypeWords Q) (htype : checker.KnowsIfAny Q (n.get .type))
    (hinitializer : checker.KnowsIfAny Q (n.get .initializer)) :
    (declaredType checker n).Gives fun t? => ∀ t ∈ t?, t.Named Q := by
  unfold declaredType
  obtain ⟨ascribed, hascribed, hnamed⟩ := htype.ascribed?
  obtain ⟨inferred, hinferred, hnamed'⟩ := hinitializer.inferred?
  refine Run.gives_bind_ofExcept hascribed ?_
  cases ascribed with
  | some t => exact Run.gives_pure hnamed
  | none =>
    dsimp only
    split
    · exact Run.gives_ofExcept hinferred hnamed'
    · rename_i hnull
      rcases htype with hv | ⟨m, hm, h⟩
      · simp [hv, Value.isNull] at hnull
      · rw [hm]
        exact (gives_reportUnresolved hQ h.source).bind fun _ _ =>
          Run.gives_ofExcept hinferred hnamed'

/-- What is written for the type of a declaration. -/
theorem gives_declaredTypeText (hQ : TypeWords Q) (htype : checker.KnowsIfAny Q (n.get .type))
    (hinitializer : checker.KnowsIfAny Q (n.get .initializer)) (nullable : Bool) {missing : String}
    (hmissing : Q missing) :
    (declaredTypeText checker n nullable missing).Gives (Value.IsWord Q) := by
  unfold declaredTypeText
  refine (gives_declaredType hQ htype hinitializer).bind fun t? hnamed => ?_
  cases t? with
  | none => exact Run.gives_pure ⟨missing, rfl, hmissing⟩
  | some t => exact gives_renderType hQ n t (hnamed t rfl) nullable

/-- What is written for the type of a variable. -/
theorem variableType_text (hQ : TypeWords Q) {s : String} (hs : Q s) :
    ∃ w, variableType (.text s) = .ok (.text w) ∧ Q w := by
  unfold variableType
  refine ⟨_, rfl, ?_⟩
  split
  · exact hQ.word _ (by simp)
  · exact hs

end CSharp

end CodeSample

import CodeSample.Proofs.NamePlaces
import CodeSample.Proofs.Totality
import CodeSample.Target.Registry

/-!
# Names that are declared and names that are used

A loop takes the name of its variable from the source, and so does a constructor that of its class;
every other name is spelled by the rule for identifiers. The two spellings are the same for all
names but a few.

* `Node.LoopsOver` are loops with one declared variable; `loopNames_of_reaches`: the head of such a
  loop has the name as it is, and the names inside are spelled by `localName`;
* `constructorName` is what constructors of a class are called; `constructorNames_of_reaches`: the
  head of a class has the name as `localName` spells it, and its constructors are called
  `constructorName`;
* `hasClassName_of_reaches`: wherever a call is made in a program, constructors have a name that can
  be written, so that loops and classes are rendered without a fault.
-/

namespace CodeSample

open Layout (Fragment Indent)
open Layout.Fragment (row line)

/-- A loop that declares one variable, by a name. -/
structure Node.LoopsOver (n : Node) (s : String) : Prop where
  kind : n.kind = .forOfStatement
  declares : ∃ list declaration m : Node,
    n.get .initializer = list.toValue ∧ list.kind = .variableDeclarationList ∧
    list.get .declarations = .list [declaration.toValue] ∧
    declaration.kind = .variableDeclaration ∧ declaration.get .name = m.toValue ∧ m.IsName s

/-- A value of a kind is a node of that kind. -/
theorem Value.exists_of_isKind {k : Kind} {v : Value} (h : v.isKind k = true) :
    ∃ n : Node, v = n.toValue ∧ n.kind = k := by
  unfold isKind kind? at h
  cases hn : v.node? with
  | none => simp [hn] at h
  | some n => exact ⟨n, (toValue_of_node? hn).symm, by simpa [hn] using h⟩

namespace CSharp

variable {n : Node} {s : String} {root v : Value} {checker : Checker} {indent : Indent}
  {preferStruct : Data} {around : List Node} {c : Flags}

/-! ### Calls in a program -/

/-- Wherever a call is made in a program, constructors have a name that can be written. -/
theorem hasClassName_of_reaches (hroot : root.all (·.isShaped .source) = true)
    (h : (backend indent preferStruct).Reaches checker root around c v) : HasClassName c := by
  induction h with
  | root => exact Or.inl rfl
  | @ask around c d n v hreaches hasks ih =>
    obtain ⟨field, -, hd⟩ := hands_of_asks hasks
    cases hd with
    | inClass hk hname =>
      -- the name of a class in a program is an identifier, and has a source text
      obtain ⟨_, hstands, -⟩ := exists_spells_of_reaches hreaches
      have hn : n.IsProgram := hstands.all hroot
      have hcontent : Grammar.source.content? n.kind .name = some (.one [.identifier]) := by
        rw [hk]
        rfl
      obtain ⟨m, hm, hprogram, -⟩ := Node.one_of_all (fun _ h => h) hn hcontent
      obtain ⟨s, hs⟩ := exists_text hprogram
      rw [hm, hs] at hname
      cases hname
      exact Or.inr ⟨s, rfl, trivial⟩
    | _ => exact ih

/-- In a program, every call for a node that is rendered by itself ends without a fault. -/
theorem exists_outcome_of_reaches (hroot : root.IsShaped .source) (hchecker : checker.IsTabled)
    (hindent : indent.isWhole = true)
    (h : (backend indent preferStruct).Reaches checker root around c n.toValue)
    (hk : n.kind ∉ Kind.inner) :
    ∃ f, ((backend indent preferStruct).convert checker c n.toValue).outcome = .ok f := by
  obtain ⟨s, hstands, -⟩ := exists_spells_of_reaches h
  have hn : n.IsRendered := ⟨hstands.all hroot.2, hk⟩
  obtain ⟨f, hf, -⟩ := gives_plain_convert hindent preferStruct hn
    (hasClassName_of_reaches hroot.2 h) hchecker
  exact ⟨f, hf⟩

/-- The name of a node in a program is the text of an identifier, and is spelled as the context
says. -/
theorem exists_declaredName (indent : Indent) (preferStruct : Data) (checker : Checker)
    (hn : n.IsProgram)
    (hname : Grammar.source.content? n.kind .name = some (.one [.identifier])) :
    ∃ s, (n.get .name).property .text = .ok (.text s) ∧
      ∀ c, ((backend indent preferStruct).convert checker c (n.get .name)).Gives
        (· = row [.text (spelledName c .identifier s)]) := by
  obtain ⟨m, hm, hprogram, hk⟩ := Node.one_of_all (fun _ h => h) hn hname
  have hk : m.kind = .identifier := List.mem_singleton.1 hk
  obtain ⟨s, hs⟩ := Node.text_of_isShaped (Node.isShaped_of_all (fun _ h => h) hprogram)
    (f := .text) (by rw [hk]; rfl)
  have hrule : rule? indent m.kind = some identifier := by
    rw [hk]
    rfl
  refine ⟨s, by rw [hm, Node.property_toValue (by rw [hk]; rfl), hs], fun c => ?_⟩
  rw [hm, convert_of_rule hrule, ← hk]
  exact gives_identifier _ hs

/-- In the initial context, a name stands in no place of a member or a key. -/
theorem spelledName_initial (indent : Indent) (preferStruct : Data) (s : String) :
    spelledName (backend indent preferStruct).initial .identifier s = localName s := by
  simp [spelledName, localName, backend, Data.truthy]

/-! ### Loops -/

/-- The variable of a loop is the name in the source. -/
theorem loopVariable_of_loopsOver (hn : n.LoopsOver s) :
    loopVariable (n.get .initializer) = pure (.text s) := by
  obtain ⟨list, declaration, m, hlist, hlk, hdeclarations, hdk, hname, hm⟩ := hn.declares
  have hitems : list.toValue.property .declarations = .ok (.list [declaration.toValue]) := by
    rw [Node.property_toValue (by rw [hlk]; rfl), hdeclarations]
  have hproperty : declaration.toValue.property .name = .ok m.toValue := by
    rw [Node.property_toValue (by rw [hdk]; rfl), hname]
  have hsole : soleDeclaration? list.toValue = .ok (some declaration.toValue) := by
    unfold soleDeclaration?
    rw [if_pos (by simp [Value.isKind, Value.kind?, hlk]), hitems]
    rfl
  unfold loopVariable
  rw [hlist, hsole]
  show (liftM (declaration.toValue.property .name) >>= fun w => liftM w.sourceText : Run Value) = _
  rw [hproperty]
  show (liftM m.toValue.sourceText : Run Value) = _
  rw [hm.sourceText]
  rfl

/-- The head of a loop has the name of its variable as it is. -/
theorem ensures_loop (hn : n.LoopsOver s) :
    ((backend indent preferStruct).convert checker c n.toValue).Ensures fun f => ∃ x y,
      ((backend indent preferStruct).convert checker c (n.get .expression)).outcome = .ok x ∧
      ((backend indent preferStruct).convert checker c (n.get .statement)).outcome = .ok y ∧
      f = withBody indent [.text "foreach (var ", .text s, .text " in ", x, .text ") "]
        (n.get .statement) y := by
  have hrule : rule? indent n.kind = some (forOfStatement indent) := by
    rw [hn.kind]
    rfl
  rw [convert_of_rule hrule]
  unfold forOfStatement
  rw [loopVariable_of_loopsOver hn, pure_bind]
  refine Run.Ensures.bind (fun x hx => hx) fun x hx => ?_
  refine Run.Ensures.bind (fun y hy => hy) fun y hy => ?_
  exact Run.ensures_pure ⟨x, y, hx, hy, rfl⟩

/-- The head of a loop has the name of its variable as it is in the source. Inside the loop the same
name is spelled by `localName`, wherever it stands in no place of a member or a key, and that is the
same as in the head if and only if the name is neither a reserved word nor `undefined`. -/
theorem loopNames_of_reaches
    (h : (backend indent preferStruct).Reaches checker root around c n.toValue)
    (hn : n.LoopsOver s) :
    (∀ f, ((backend indent preferStruct).convert checker c n.toValue).outcome = .ok f →
      ∃ x y,
        ((backend indent preferStruct).convert checker c (n.get .expression)).outcome = .ok x ∧
        ((backend indent preferStruct).convert checker c (n.get .statement)).outcome = .ok y ∧
        f = withBody indent [.text "foreach (var ", .text s, .text " in ", x, .text ") "]
          (n.get .statement) y) ∧
    (root.IsShaped .source → checker.IsTabled → indent.isWhole = true →
      ∃ f, ((backend indent preferStruct).convert checker c n.toValue).outcome = .ok f) ∧
    (∀ (inner : List Node) (d : Flags) (m : Node), m.IsName s →
      (backend indent preferStruct).Reaches checker root (inner ++ n :: around) d m.toValue →
        ∃ p, NameStands root (inner ++ n :: around) m.toValue p ∧
          (p.isMember = false → p.isKey = false →
            (backend indent preferStruct).convert checker d m.toValue =
              pure (row [.text (localName s)]))) ∧
    (localName s = s ↔ s ∉ reservedWords ∧ s ≠ "undefined") := by
  refine ⟨ensures_loop hn, fun hroot hchecker hindent => ?_, fun inner d m hm hreaches => ?_,
    localName_eq_self_iff⟩
  · exact exists_outcome_of_reaches hroot hchecker hindent h (by rw [hn.kind]; decide)
  · obtain ⟨p, hstands, hspells⟩ := exists_spells_of_reaches hreaches
    exact ⟨p, hstands, fun hmember hkey =>
      convert_of_isName hm (hspells.member hmember) (hspells.key hkey)⟩

/-- An identifier of which only the name is recorded. -/
def named (s : String) : Node := ⟨.identifier, .unknown, .text s, none, [.text s]⟩

/-- A loop that prints the values of a list, with its variable called by a name. -/
def logging (s : String) : Node :=
  ⟨.forOfStatement, .unknown, .text "", none, [
    .bare .variableDeclarationList [
      .list [.bare .variableDeclaration [(named s).toValue, .null, .null]], .text "const"],
    (named (s ++ "s")).toValue,
    .bare .expressionStatement [
      .bare .callExpression [(named "log").toValue, .list [(named s).toValue]]]]⟩

/-- A loop over a variable that is called `item`. -/
theorem loopNames_of_reaches_item :
    ∃ x y, ((backend (.blanks 4) (.bool true)).convert .recorded { preferStruct := .bool true }
        (logging "item").toValue).outcome =
      .ok (withBody (.blanks 4) [.text "foreach (var ", .text "item", .text " in ", x, .text ") "]
        ((logging "item").get .statement) y) := by
  have hloop : (logging "item").LoopsOver "item" :=
    ⟨rfl, ⟨_, _, _, _, _⟩, ⟨_, _, _, _, _⟩, named "item", rfl, rfl, rfl, rfl, rfl, rfl, rfl, rfl⟩
  have hreaches : (backend (.blanks 4) (.bool true)).Reaches .recorded (logging "item").toValue []
      { preferStruct := .bool true } (logging "item").toValue := .root
  obtain ⟨hhead, hends, -, -⟩ := loopNames_of_reaches hreaches hloop
  obtain ⟨f, hf⟩ := hends (by decide) (Or.inl rfl) rfl
  obtain ⟨x, y, -, -, rfl⟩ := hhead f hf
  exact ⟨x, y, hf⟩

/-- A name that is a reserved word is not the same in the head of a loop and inside. -/
theorem text_logging_event :
    (Target.render (.text name) [] .recorded (logging "event").toValue).map Rendering.text =
      .ok "foreach (var event in events)\n    Log(@event);" ∧
    (Target.render (.text name) [] .recorded (named "event").toValue).map Rendering.text =
      .ok "@event" := by
  decide +kernel

/-! ### Classes -/

/-- What the constructors of a class are called, by the name of the class in the source. -/
def constructorName (s : String) : String := if s = "" then placeholderClass else s

/-- A constructor is called as its class is, unless the name of the class is empty or changed. -/
theorem constructorName_eq_localName_iff :
    constructorName s = localName s ↔ s ≠ "" ∧ s ∉ reservedWords ∧ s ≠ "undefined" := by
  rw [← localName_eq_self_iff]
  unfold constructorName
  split
  · rename_i hempty
    subst hempty
    exact iff_of_false (by decide) fun h => h.1 rfl
  · rename_i hne
    rw [eq_comm, and_iff_right hne]

/-- What is written for a constructor begins with a name. -/
def IsCalled (name : String) (y : Fragment) : Prop :=
  ∃ rest children style,
    y = .tree (.text "public " :: .text name :: .text "(" :: rest) children style

/-- A constructor is called by the name that the context has. -/
theorem ensures_constructor (hn : n.kind = .constructor) (hc : c.className = .text s) :
    ((backend indent preferStruct).convert checker c n.toValue).Ensures
      (IsCalled (constructorName s)) := by
  have hword : (c.className.orElse (.text placeholderClass)).toFragment =
      .text (constructorName s) := by
    rw [hc]
    unfold Value.orElse constructorName
    by_cases hs : s = ""
    · simp [hs, Value.truthy, Value.toFragment]
    · simp [hs, Value.truthy, Value.toFragment]
  have hrule : rule? indent n.kind = some constructor := by
    rw [hn]
    rfl
  rw [convert_of_rule hrule]
  unfold constructor signature
  refine Run.ensures_bind fun parameters => ?_
  simp only [Backend.view, hword]
  split
  · exact Run.ensures_pure ⟨_, _, _, rfl⟩
  · exact Run.ensures_bind fun body => Run.ensures_pure ⟨_, _, _, rfl⟩

/-- The head of a class has its name as `localName` spells it, and the constructors among its
members are called `constructorName`. The two are the same if and only if the name is neither empty
nor a reserved word nor `undefined`. -/
theorem constructorNames_of_reaches (hroot : root.IsShaped .declared)
    (h : (backend indent preferStruct).Reaches checker root around c n.toValue)
    (hk : n.kind = .classDeclaration) {m : Node} (hname : n.get .name = m.toValue)
    (hm : m.IsName s) :
    (∀ f, ((backend indent preferStruct).convert checker c n.toValue).outcome = .ok f →
      ∃ extended members ys, (n.get .members).items = .ok members ∧
        f = .tree ([.text "class ", row [.text (localName s)]] ++ extended ++ [.text "\n\x7b"]) ys
          { indent, fresh := true, closing := some "\n\x7d" } ∧
        List.Forall₂ (fun v y => v.isKind .constructor = true → IsCalled (constructorName s) y)
          members ys) ∧
    (root.IsShaped .source → checker.IsTabled → indent.isWhole = true →
      ∃ f, ((backend indent preferStruct).convert checker c n.toValue).outcome = .ok f) ∧
    (constructorName s = localName s ↔ s ≠ "" ∧ s ∉ reservedWords ∧ s ≠ "undefined") := by
  refine ⟨?_, fun hsource hchecker hindent => ?_, constructorName_eq_localName_iff⟩
  · obtain ⟨p, hstands, hspells⟩ := exists_spells_of_reaches h
    obtain rfl := eq_plain_of_stands hroot.2 hstands (by rw [hk]; decide)
    have hrule : rule? indent n.kind = some (classDeclaration indent) := by
      rw [hk]
      rfl
    rw [convert_of_rule hrule]
    unfold classDeclaration declaration
    rw [hname, hm.sourceText]
    show ((backend indent preferStruct).convert checker c m.toValue >>= _).Ensures _
    rw [convert_of_isName hm (hspells.member rfl) (hspells.key rfl), pure_bind]
    refine Run.ensures_bind fun extended => ?_
    unfold View.convertAll
    rw [bind_assoc]
    refine Run.Ensures.bind (fun members hmembers => hmembers) fun members hmembers => ?_
    have hmember (v : Value) : ((backend indent preferStruct).convert checker
        { c with className := .text s } v).Ensures
          fun y => v.isKind .constructor = true → IsCalled (constructorName s) y := by
      intro y hy hkind
      obtain ⟨k, rfl, hconstructor⟩ := Value.exists_of_isKind hkind
      exact ensures_constructor hconstructor rfl y hy
    refine (Run.ensures_mapM_forall₂ fun v _ => hmember v).bind fun ys hys => ?_
    exact Run.ensures_pure ⟨extended, members, ys, hmembers, rfl, hys⟩
  · exact exists_outcome_of_reaches hsource hchecker hindent h (by rw [hk]; decide)

/-- A class with a constructor that does nothing. -/
def constructed (s : String) : Node :=
  ⟨.classDeclaration, .unknown, .text "", none, [(named s).toValue, .list [],
    .list [.bare .constructor [.list [], .bare .block [.list []]]]]⟩

/-- A class that is called `Point`, as its constructor is. -/
theorem constructorNames_of_reaches_point :
    ∃ extended members ys,
      ((constructed "Point").get .members).items = .ok members ∧
      ((backend (.blanks 4) (.bool true)).convert .recorded { preferStruct := .bool true }
        (constructed "Point").toValue).outcome =
        .ok (.tree ([.text "class ", row [.text "Point"]] ++ extended ++ [.text "\n\x7b"]) ys
          { indent := .blanks 4, fresh := true, closing := some "\n\x7d" }) ∧
      List.Forall₂ (fun v y => v.isKind .constructor = true → IsCalled "Point" y) members ys := by
  have hshaped : (constructed "Point").toValue.IsShaped .source := by decide
  have hreaches : (backend (.blanks 4) (.bool true)).Reaches .recorded
      (constructed "Point").toValue [] { preferStruct := .bool true }
      (constructed "Point").toValue := .root
  have hname : (named "Point").IsName "Point" := ⟨rfl, rfl, rfl⟩
  obtain ⟨hall, hends, -⟩ := constructorNames_of_reaches (by decide) hreaches rfl rfl hname
  obtain ⟨f, hf⟩ := hends hshaped (Or.inl rfl) rfl
  obtain ⟨extended, members, ys, hmembers, rfl, hys⟩ := hall f hf
  exact ⟨extended, members, ys, hmembers, hf, hys⟩

/-- A name that is a reserved word is not the same in the head of a class and in its constructor. -/
theorem text_constructed_event :
    (Target.render (.text name) [] .recorded (constructed "event").toValue).map Rendering.text =
      .ok "class @event\n\x7b\n    public event()\n    \x7b\n    \x7d\n\x7d" := by
  decide +kernel

end CSharp

end CodeSample

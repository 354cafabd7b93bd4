import CodeSample.Proofs.HandedContexts

/-!
# Flags stay in their places

The C# rules hand settings down the tree, and a setting that one construct makes has to be gone
below the parts that it is made for. In every call that is made while a tree is rendered, each flag
is only set where it means something.

* `Place` is what counts of where a value stands: whether it is the key of an assignment, a member
  of an interface that only holds data or the name of one, and the class among whose members it is;
* `Flags.Obeys` is the law that ties the flags of a call to the place of its value;
* `obeys_of_hands`: every rule hands the law on, setting by setting, so that the rule for a node
  whose flags obey it is determined by the calls that do (`visit_congr_of_obeys`);
* `obeys_of_reaches`: every call that is made obeys the law.
-/

namespace CodeSample

open Layout (Fragment Indent)

/-- Whether all members of a declaration are properties. -/
def Node.onlyHoldsData (n : Node) : Bool :=
  match (n.get .members).items with
  | .ok vs => vs.all (·.isKind .propertySignature)
  | .error _ => false

namespace CSharp

/-! ### Places and the law -/

/-- What counts of the place of a value. -/
structure Place where
  /-- It is the key of an assignment in an object literal. -/
  isKey : Bool := false
  /-- It is a member of an interface that only holds data. -/
  isDataMember : Bool := false
  /-- It is the name of such a member. -/
  isDataName : Bool := false
  /-- The innermost class among whose members it is. -/
  class? : Option Node := none

/-- What counts of the place of a value in a field of a node, from what counts of the node's. -/
def Place.within (s : Place) (n : Node) (f : Field) : Place where
  isKey := Kind.assignments.contains n.kind && f == .name
  isDataMember := n.kind == .interfaceDeclaration && f == .members && n.onlyHoldsData
  isDataName := s.isDataMember && f == .name
  class? := if n.kind = .classDeclaration ∧ f = .members then some n else s.class?

/-- Where a value stands in a tree that a call has reached. -/
abbrev StandsAt (root : Value) (around : List Node) (v : Value) (s : Place) : Prop :=
  Value.Stands {} Place.within root around v s

/-- The flags of a call go with the place of its value. -/
structure Flags.Obeys (c : Flags) (s : Place) (v : Value) : Prop where
  /-- Identifiers are only quoted as keys. -/
  asString : s.isKey = false → c.identifierAsString = .bool false
  /-- String literals are only unquoted as keys. -/
  asIdentifier : s.isKey = false → c.stringAsIdentifier = .bool false
  /-- Only assignments are pairs of a dictionary, and their keys stand in one. -/
  keyValue : c.keyValue = .bool false ∨
    (v.isOneOf Kind.assignments = true ∨ s.isKey = true) ∧ c.keyValue = .bool true
  /-- Only the members of an interface that holds data, and their names, are rendered as such. -/
  dataInterface : c.dataInterface = .bool false ∨
    (s.isDataMember = true ∨ s.isDataName = true) ∧ c.dataInterface = .bool true
  /-- The class is the one around, by the source text of its name. -/
  className : match s.class? with
    | none => c.className = .null
    | some k => (k.get .name).sourceText = .ok c.className

/-- No flag is set that has its place in a few constructs only. -/
structure Flags.IsClear (c : Flags) : Prop where
  asString : c.identifierAsString = .bool false
  asIdentifier : c.stringAsIdentifier = .bool false
  keyValue : c.keyValue = .bool false
  dataInterface : c.dataInterface = .bool false

/-- The class of a place, as a context tells it. -/
abbrev Flags.IsInClass (c : Flags) (class? : Option Node) : Prop :=
  match class? with
  | none => c.className = .null
  | some k => (k.get .name).sourceText = .ok c.className

/-- Clear flags go with every place in the class that the context tells. -/
theorem Flags.IsClear.obeys {c : Flags} (h : c.IsClear) {s : Place} (hclass : c.IsInClass s.class?)
    (v : Value) : c.Obeys s v :=
  ⟨fun _ => h.asString, fun _ => h.asIdentifier, Or.inl h.keyValue, Or.inl h.dataInterface, hclass⟩

/-! ### The places of nodes in a shaped tree -/

/-- Only identifiers and string literals are keys, only properties are members of an interface that
holds data, and identifiers their names. -/
structure Place.Fits (s : Place) (n : Node) : Prop where
  key : s.isKey = true → n.kind ∈ [.identifier, .stringLiteral]
  dataMember : s.isDataMember = true → n.kind = .propertySignature
  dataName : s.isDataName = true → n.kind = .identifier

/-- In a field for one node stands nothing but its content. -/
theorem eq_get_of_holds {n : Node} {f : Field} {kinds : List Kind} {v : Value}
    (hn : n.isShaped .declared = true)
    (hf : Grammar.declared.content? n.kind f = some (.one kinds)) (hv : n.Holds f v) :
    v = n.get f := by
  obtain ⟨m, hm, -⟩ := Node.one_of_isShaped hn hf
  cases hv with
  | content => rfl
  | item hvs _ =>
    rw [hm] at hvs
    cases hvs
  | extended hclauses _ _ _ _ _ =>
    rw [hm] at hclauses
    cases hclauses

/-- A node in a field for one node is of a kind that the field admits. -/
theorem kind_of_holds {n m : Node} {f : Field} {kinds : List Kind}
    (hn : n.isShaped .declared = true)
    (hf : Grammar.declared.content? n.kind f = some (.one kinds)) (hv : n.Holds f m.toValue) :
    m.kind ∈ kinds := by
  have heq := eq_get_of_holds hn hf hv
  obtain ⟨k, hk, hkind⟩ := Node.one_of_isShaped hn hf
  have hmk : some m = some k := by
    rw [← Value.node?_toValue m, heq, hk, Value.node?_toValue]
  rw [Option.some.inj hmk]
  exact hkind

/-- Among the members of an interface that only holds data stand properties. -/
theorem kind_of_holds_members {n m : Node} (hn : n.isShaped .declared = true)
    (hk : n.kind = .interfaceDeclaration) (hdata : n.onlyHoldsData = true)
    (hv : n.Holds .members m.toValue) : m.kind = .propertySignature := by
  obtain ⟨vs, hvs, -⟩ := Node.many_of_isShaped hn (f := .members) (by rw [hk]; rfl)
  have hitems : (n.get .members).items = .ok vs := by rw [hvs, Value.items]
  have hall : ∀ v ∈ vs, v.isKind .propertySignature = true := by
    unfold Node.onlyHoldsData at hdata
    rw [hitems] at hdata
    simpa using hdata
  generalize hw : m.toValue = w at hv
  cases hv with
  | content =>
    rw [hvs] at hw
    cases hw
  | item hvs' hmem =>
    rw [hitems] at hvs'
    cases hvs'
    have := hall _ hmem
    rw [← hw] at this
    simpa [Value.isKind, Value.kind?] using this
  | extended hclauses hclause htypes _ _ _ =>
    -- a property has no types to extend
    rw [hitems] at hclauses
    cases hclauses
    have := hall _ hclause
    unfold Value.property at htypes
    rename_i clause _ _ _ _ _ _
    cases hnode : clause.node? with
    | none => simp [hnode] at htypes
    | some k =>
      have hkind : k.kind = .propertySignature := by
        simpa [Value.isKind, Value.kind?, hnode] using this
      have hindex : Kind.propertySignature.index? .types = none := by decide
      simp [hnode, hkind, hindex] at htypes

/-- What counts of a node's place goes with its kind. -/
theorem fits_of_stands {root : Value} (hroot : root.all (·.isShaped .declared) = true)
    {around : List Node} {m : Node} {s : Place} (h : StandsAt root around m.toValue s) :
    s.Fits m := by
  generalize hw : m.toValue = w at h
  induction h generalizing m with
  | root => exact ⟨by simp, by simp, by simp⟩
  | @within around n s f v hn hv ih =>
    subst hw
    have hshape : n.isShaped .declared = true :=
      ((Value.all_toValue n).1 (hn.all hroot)).1
    have hfits : s.Fits n := ih rfl
    refine ⟨fun hkey => ?_, fun hmember => ?_, fun hname => ?_⟩
    · simp only [Place.within, Bool.and_eq_true, beq_iff_eq, Kind.assignments,
        List.contains_iff_mem, List.mem_cons, List.not_mem_nil, or_false] at hkey
      obtain ⟨hk | hk, rfl⟩ := hkey
      · exact kind_of_holds hshape (by rw [hk]; rfl) hv
      · have hidentifier : m.kind ∈ [Kind.identifier] :=
          kind_of_holds hshape (by rw [hk]; rfl) hv
        simp_all
    · simp only [Place.within, Bool.and_eq_true, beq_iff_eq] at hmember
      obtain ⟨⟨hk, rfl⟩, hdata⟩ := hmember
      exact kind_of_holds_members hshape hk hdata hv
    · simp only [Place.within, Bool.and_eq_true, beq_iff_eq] at hname
      obtain ⟨hmember, rfl⟩ := hname
      have hidentifier : m.kind ∈ [Kind.identifier] :=
        kind_of_holds hshape (by rw [hfits.dataMember hmember]; rfl) hv
      exact List.mem_singleton.1 hidentifier

/-! ### Every rule hands the law on -/

section

variable {n : Node} {s : Place} {c d : Flags} {field : Field} {v : Value} {checker : Checker}
  {indent : Indent} {f g : Flags → Value → Run Fragment}

/-- Two ways of rendering parts agree on all calls that obey the law at the parts of a node. -/
def AgreeAt (s : Place) (n : Node) (f g : Flags → Value → Run Fragment) : Prop :=
  ∀ (d : Flags) (field : Field) (v : Value), n.Holds field v → d.Obeys (s.within n field) v →
    f d v = g d v

/-- The members of an interface are rendered as those of one that only holds data if it does. -/
theorem onlyHoldsData_of_isDataInterface {data : Bool} (h : Dispatch.isDataInterface n = .ok data) :
    n.onlyHoldsData = data := by
  unfold Dispatch.isDataInterface at h
  unfold Node.onlyHoldsData
  cases hvs : (n.get .members).items with
  | error e =>
    rw [hvs] at h
    cases h
  | ok vs =>
    rw [hvs] at h
    exact Except.ok.inj h

/-- What stands among the properties of an object literal is an assignment. -/
theorem isOneOf_of_mem_properties (hn : n.isShaped .declared = true)
    (hk : n.kind = .objectLiteralExpression) {vs : List Value}
    (hvs : (n.get .properties).items = .ok vs) (hv : v ∈ vs) :
    v.isOneOf Kind.assignments = true := by
  obtain ⟨ws, hws, hall⟩ := Node.many_of_isShaped hn (f := .properties) (by rw [hk]; rfl)
  rw [hws] at hvs
  cases hvs
  obtain ⟨m, rfl, hm⟩ := hall v hv
  simpa [Value.isOneOf, Value.kind?] using hm

/-- The class of a place is that of the node's, except among the members of a class. -/
theorem Flags.IsInClass.within (hc : c.IsInClass s.class?)
    (hfield : n.kind = .classDeclaration → field ≠ .members) :
    c.IsInClass (s.within n field).class? := by
  have hsame : (s.within n field).class? = s.class? := if_neg fun h => hfield h.1 h.2
  rwa [hsame]

/-- Nodes of other kinds than keys stand in no place of a key. -/
theorem Place.Fits.isKey_eq_false (hs : s.Fits n) (hk : n.kind ∉ [.identifier, .stringLiteral]) :
    s.isKey = false := by
  by_contra hkey
  exact hk (hs.key (by simpa using hkey))

/-- A node outside of the pairs of a dictionary is rendered as such. -/
theorem Flags.Obeys.keyValue_eq_false (hc : c.Obeys s n.toValue) (hkey : s.isKey = false)
    (hpair : n.kind ∈ Kind.assignments → c.keyValue.truthy = false) :
    c.keyValue = .bool false := by
  rcases hc.keyValue with hfalse | ⟨hplace, htrue⟩
  · exact hfalse
  · rw [hkey] at hplace
    have hassignment := hplace.resolve_right Bool.false_ne_true
    have hfalse := hpair (by simpa [Value.isOneOf, Value.kind?] using hassignment)
    rw [htrue] at hfalse
    cases hfalse

/-- So is one outside of the interfaces that only hold data. -/
theorem Flags.Obeys.dataInterface_eq_false (hc : c.Obeys s n.toValue) (hs : s.Fits n)
    (hk : n.kind ∉ [.identifier, .stringLiteral]) (hother : n.kind ≠ .propertySignature) :
    c.dataInterface = .bool false := by
  rcases hc.dataInterface with hfalse | ⟨hmember | hnamed, -⟩
  · exact hfalse
  · exact absurd (hs.dataMember hmember) hother
  · exact absurd (by simp [hs.dataName hnamed]) hk

/-- The law is handed on by every rule. -/
theorem obeys_of_hands (hn : n.isShaped .declared = true) (hc : c.Obeys s n.toValue)
    (hs : s.Fits n) (h : Hands c n field v d) : d.Obeys (s.within n field) v := by
  -- nothing is rendered below a key, so that no flag is set which has its place in one
  have hkind := h.kind_not_mem
  have hkey := hs.isKey_eq_false hkind
  have asString {t : Place} (_ : t.isKey = false) := hc.asString hkey
  have asIdentifier {t : Place} (_ : t.isKey = false) := hc.asIdentifier hkey
  have alone := hc.keyValue_eq_false hkey
  have noData := hc.dataInterface_eq_false hs hkind
  have inClass (hfield : n.kind = .classDeclaration → field ≠ .members) :
      c.IsInClass (s.within n field).class? := Flags.IsInClass.within hc.className hfield
  have hassignment : ∀ k ∈ Kind.assignments, k ≠ .classDeclaration ∧ k ≠ .propertySignature := by
    decide
  have isKey (hk : n.kind ∈ Kind.assignments) : (s.within n .name).isKey = true := by
    simpa [Place.within] using hk
  have notKey {P : Prop} (hk : n.kind ∈ Kind.assignments)
      (hfalse : (s.within n .name).isKey = false) : P :=
    absurd ((isKey hk).symm.trans hfalse) nofun
  cases h with
  | same hown hpair =>
    refine ⟨asString, asIdentifier, Or.inl (alone hpair), Or.inl (noData ?_), inClass ?_⟩
    · intro hk
      rw [hk] at hown
      exact hown field.mem_all
    · rintro hk rfl
      rw [hk] at hown
      exact hown (by decide)
  | member hfield =>
    have hmember : ∀ k ∈ Kind.all, ∀ f ∈ memberFields k,
        k ∉ Kind.assignments ∧ k ≠ .classDeclaration ∧ (k = .propertySignature → f = .name) := by
      decide
    obtain ⟨hpair, hclass, hproperty⟩ := hmember _ n.kind.mem_all _ hfield
    refine ⟨asString, asIdentifier, Or.inl (alone fun hk => absurd hk hpair), ?_,
      inClass fun hk => absurd hk hclass⟩
    -- the name of a property keeps what the member has
    rcases hc.dataInterface with hfalse | ⟨hdata | hnamed, htrue⟩
    · exact Or.inl hfalse
    · have hdataName : (s.within n field).isDataName = true := by
        simp [Place.within, hdata, hproperty (hs.dataMember hdata)]
      exact Or.inr ⟨Or.inr hdataName, htrue⟩
    · exact absurd (by simp [hs.dataName hnamed]) hkind
  | receiver hk | initializer hk =>
    exact ⟨asString, asIdentifier, Or.inl (alone (by simp [hk, Kind.assignments])),
      Or.inl (noData (by simp [hk])), inClass (by simp [hk])⟩
  | pair hk hvs hv =>
    exact ⟨asString, asIdentifier, Or.inr ⟨Or.inl (isOneOf_of_mem_properties hn hk hvs hv), rfl⟩,
      Or.inl (noData (by simp [hk])), inClass (by simp [hk])⟩
  | pairKey hk htrue =>
    have hpair : c.keyValue = .bool true := by
      rcases hc.keyValue with hfalse | ⟨-, hpair⟩
      · rw [hfalse] at htrue
        cases htrue
      · exact hpair
    exact ⟨notKey hk, notKey hk, Or.inr ⟨Or.inr (isKey hk), hpair⟩,
      Or.inl (noData (hassignment _ hk).2),
      inClass fun hclass => absurd hclass (hassignment _ hk).1⟩
  | pairValue field hk _ =>
    exact ⟨asString, asIdentifier, Or.inl rfl, Or.inl (noData (hassignment _ hk).2),
      inClass fun hclass => absurd hclass (hassignment _ hk).1⟩
  | propertyName hk hfalse =>
    exact ⟨notKey hk, notKey hk, Or.inl (alone fun _ => hfalse),
      Or.inl (noData (hassignment _ hk).2),
      inClass fun hclass => absurd hclass (hassignment _ hk).1⟩
  | inClass hk hname =>
    refine ⟨asString, asIdentifier, Or.inl (alone (by simp [hk, Kind.assignments])),
      Or.inl (noData (by simp [hk])), ?_⟩
    have hsome : (s.within n .members).class? = some n := if_pos ⟨hk, rfl⟩
    rw [hsome]
    exact hname
  | @inInterface _ data hk hdata =>
    refine ⟨asString, asIdentifier, Or.inl (alone (by simp [hk, Kind.assignments])), ?_,
      inClass (by simp [hk])⟩
    cases data with
    | false => exact Or.inl rfl
    | true =>
      have honly := onlyHoldsData_of_isDataInterface hdata
      exact Or.inr ⟨Or.inl (by simp [Place.within, hk, honly]), rfl⟩

/-- The rule for a node whose flags obey the law is determined by the calls that obey it. -/
theorem visit_congr_of_obeys (hn : n.isShaped .declared = true) (hc : c.Obeys s n.toValue)
    (hs : s.Fits n) (preferStruct : Data) (h : AgreeAt s n f g) :
    (backend indent preferStruct).visit ⟨c, checker, f⟩ n =
      (backend indent preferStruct).visit ⟨c, checker, g⟩ n :=
  AgreeOn.visit_congr_of_hands
    (fun field v d hv hd => h d field v hv (obeys_of_hands hn hc hs hd)) preferStruct

end

/-! ### Every call -/

/-- Every call that is made while a tree is rendered obeys the law, at a place where its value
stands below the nodes that are being rendered. -/
theorem obeys_of_reaches {root : Value} (hroot : root.IsShaped .declared) {checker : Checker}
    {indent : Indent} {preferStruct : Data} {around : List Node} {c : Flags} {v : Value}
    (h : (backend indent preferStruct).Reaches checker root around c v) :
    ∃ s : Place, StandsAt root around v s ∧ c.Obeys s v := by
  induction h with
  | root =>
    refine ⟨{}, .root, ?_⟩
    exact Flags.IsClear.obeys ⟨rfl, rfl, rfl, rfl⟩ rfl root
  | @ask around c d n v _ hasks ih =>
    obtain ⟨s, hstands, hobeys⟩ := ih
    have hshape : n.isShaped .declared = true :=
      ((Value.all_toValue n).1 (hstands.all hroot.2)).1
    have hfits : s.Fits n := fits_of_stands hroot.2 hstands
    obtain ⟨field, hholds, hd⟩ := hasks.mem
      (fun e w => ∃ field, n.Holds field w ∧ e.Obeys (s.within n field) w) fun f g hfg =>
        visit_congr_of_obeys hshape hobeys hfits preferStruct fun e field w hw he =>
          hfg e w ⟨field, hw, he⟩
    exact ⟨s.within n field, .within hstands hholds, hd⟩

/-- An assignment in an object literal. -/
def sizePair : Node :=
  ⟨.propertyAssignment, .unknown, .text "", none, [
    .node .identifier .unknown (.text "size") none [.text "size"],
    .node .numericLiteral .unknown (.text "1") none [.text "1"]]⟩

/-- An object literal of unknown type with that one property. -/
def sizes : Node :=
  ⟨.objectLiteralExpression, .unknown, .text "", none, [.list [sizePair.toValue]]⟩

/-- The context of the pairs of a dictionary. -/
def pairFlags : Flags := { preferStruct := .bool false, keyValue := .bool true }

/-- The context of their keys. -/
def pairKeyFlags : Flags := { pairFlags with identifierAsString := .bool true }

/-- The key of a pair is quoted: the call for it is made with its flag set, and obeys the law. -/
theorem obeys_of_reaches_sizes :
    (backend (.blanks 4) (.bool false)).Reaches .recorded sizes.toValue [sizePair, sizes]
      pairKeyFlags (sizePair.get .name) ∧
    ∃ s : Place, StandsAt sizes.toValue [sizePair, sizes] (sizePair.get .name) s ∧
      pairKeyFlags.Obeys s (sizePair.get .name) := by
  have hpair : (backend (.blanks 4) (.bool false)).Reaches .recorded sizes.toValue [sizes]
      pairFlags sizePair.toValue := by
    refine .ask .root (Backend.asks_of_fault .tooLong (fun answers h => ?_) nofun)
    have hpairs : ((View.mk pairFlags .recorded answers).convertAll
        (.list [sizePair.toValue])).outcome = .error .tooLong := by
      change (answers pairFlags sizePair.toValue >>= _).outcome = _
      rw [h]
      rfl
    exact Backend.outcome_bind_of_error hpairs _
  have hkey : (backend (.blanks 4) (.bool false)).Reaches .recorded sizes.toValue
      [sizePair, sizes] pairKeyFlags (sizePair.get .name) := by
    refine .ask hpair (Backend.asks_of_fault .tooLong (fun answers h => ?_) nofun)
    change (answers pairKeyFlags (sizePair.get .name) >>= _).outcome = _
    rw [h]
    rfl
  exact ⟨hkey, obeys_of_reaches (by decide) hkey⟩

end CSharp

end CodeSample

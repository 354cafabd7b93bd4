import CodeSample.Proofs.HandedContexts
import CodeSample.Proofs.StatementRules

/-!
# Where names are spelled as they are

An identifier is spelled in one of three ways: capitalised in the place of a member, quoted as the
key of a pair, and else as it is, but for reserved words. Which of these it is follows from where it
stands: the place of a member and that of a key reach down from the names and callees that make
them.

* `NamePlace` is what counts of the place of a name, and `Flags.Spells` the law that ties a context
  to it; `spells_of_hands`: the law is handed on by every rule;
* `localName` is the spelling outside of these places, `convert_of_isName` says so, and
  `localName_eq_self_iff` says which names it changes;
* `eq_plain_of_stands`: in a tree of the language, statements and the parts that only statements
  have stand outside of these places.
-/

namespace CodeSample

open Layout (Fragment Indent)
open Layout.Fragment (row)

/-- An identifier by a name, with no other source text than the name. -/
structure Node.IsName (n : Node) (s : String) : Prop where
  kind : n.kind = .identifier
  text : n.get .text = .text s
  source : n.source = .text s

/-- The source text of such an identifier is the name. -/
theorem Node.IsName.sourceText {n : Node} {s : String} (h : n.IsName s) :
    n.toValue.sourceText = .ok (.text s) := by
  obtain ⟨kind, pos, source, type?, fields⟩ := n
  obtain ⟨rfl, -, rfl⟩ := h
  unfold Node.toValue
  rw [Value.sourceText]
  · by_cases hs : s = ""
    · subst hs
      rfl
    · rw [if_pos (by simp [Value.truthy, hs])]
  all_goals simp

/-! ### Where statements stand -/

/-- The kinds of the nodes that a content admits. -/
def Content.kinds : Content → List Kind
  | .one kinds | .maybe kinds | .many kinds => kinds
  | _ => []

/-- The kinds of programs and statements, and of the parts that only they have. -/
def Kind.outer : List Kind := statements ++ classMembers ++ interfaceMembers ++
  [.sourceFile, .variableDeclarationList, .variableDeclaration, .parameter]

namespace Node

variable {n m : Node} {f : Field}

/-- A field of a shaped node that holds anything is one of its kind. -/
theorem exists_content {g : Grammar} (hn : n.isShaped g = true) (hf : n.get f ≠ .null) :
    ∃ content, g.content? n.kind f = some content ∧ content.holds (n.get f) = true := by
  cases hcontent : g.content? n.kind f with
  | some content => exact ⟨content, rfl, holds_get hn hcontent⟩
  | none =>
    refine absurd ?_ hf
    have hlength : (g n.kind).length = n.fields.length := (isShaped_iff.1 hn).2.2.1
    unfold Grammar.content? at hcontent
    unfold get
    cases hindex : n.kind.index? f with
    | none => rfl
    | some i =>
      rw [hindex, Option.bind_some, List.getElem?_eq_none_iff, hlength,
        ← List.getElem?_eq_none_iff] at hcontent
      rw [Option.bind_some, hcontent]
      rfl

/-- A node that is found to be of some kinds is of one of them. -/
theorem kind_mem_of_isOneOf {kinds : List Kind} (h : m.toValue.isOneOf kinds = true) :
    m.kind ∈ kinds := by
  simpa [Value.isOneOf, Value.kind?] using h

/-- A node that is the content of a field is of a kind that the field admits. -/
theorem kind_mem_of_get {g : Grammar} (hn : n.isShaped g = true) (hf : n.get f = m.toValue) :
    ∃ content, g.content? n.kind f = some content ∧ m.kind ∈ content.kinds := by
  obtain ⟨content, hcontent, hholds⟩ := exists_content hn (by rw [hf]; nofun)
  refine ⟨content, hcontent, ?_⟩
  rw [hf] at hholds
  cases content with
  | one kinds => exact kind_mem_of_isOneOf hholds
  | maybe kinds => exact kind_mem_of_isOneOf hholds
  | text | mark | many _ => cases hholds

/-- So is a node in a list there. -/
theorem kind_mem_of_items {g : Grammar} (hn : n.isShaped g = true) {vs : List Value}
    (hvs : (n.get f).items = .ok vs) (hm : m.toValue ∈ vs) :
    ∃ content, g.content? n.kind f = some content ∧ m.kind ∈ content.kinds := by
  have hnull : n.get f ≠ .null := by
    intro hnull
    rw [hnull] at hvs
    cases hvs
  obtain ⟨content, hcontent, hholds⟩ := exists_content hn hnull
  refine ⟨content, hcontent, ?_⟩
  cases hlist : n.get f with
  | list ws =>
    rw [hlist] at hvs hholds
    cases hvs
    cases content with
    | many kinds => exact kind_mem_of_isOneOf (List.all_eq_true.1 hholds _ hm)
    | _ => cases hholds
  | text _ | object _ =>
    rw [hlist] at hvs
    cases hvs
    obtain ⟨_, -, htext⟩ := List.mem_map.1 hm
    cases htext
  | _ =>
    rw [hlist] at hvs
    cases hvs

/-- What a clause extends is an expression. -/
theorem kind_mem_of_holds (hn : n.toValue.all (·.isShaped .declared) = true)
    (h : n.Holds f m.toValue) :
    (∃ content, Grammar.declared.content? n.kind f = some content ∧ m.kind ∈ content.kinds) ∨
      m.kind ∈ Kind.expressions := by
  generalize hw : m.toValue = w at h
  cases h with
  | content => exact Or.inl (kind_mem_of_get (isShaped_of_all (fun _ h => h) hn) hw.symm)
  | item hvs hmem =>
    subst hw
    exact Or.inl (kind_mem_of_items (isShaped_of_all (fun _ h => h) hn) hvs hmem)
  | extended hclauses hclause htypes hts ht he =>
    subst hw
    rename_i t _ _
    have hall : t.all (·.isShaped .declared) = true :=
      Value.all_items (Value.all_property (Value.all_items (Value.all_get hn f) hclauses hclause)
        htypes) hts ht
    unfold Value.property at he
    cases hnode : t.node? with
    | none => simp [hnode] at he
    | some k =>
      obtain rfl := Value.toValue_of_node? hnode
      have hget : k.get .expression = m.toValue := by
        rw [hnode] at he
        dsimp only at he
        split at he
        · exact Except.ok.inj he
        · cases he
      obtain ⟨content, hcontent, hkind⟩ :=
        kind_mem_of_get (isShaped_of_all (fun _ h => h) hall) hget
      have hexpression : ∀ k ∈ Kind.all, ∀ content ∈ Grammar.declared.content? k .expression,
          content.kinds ⊆ Kind.expressions := by decide
      exact Or.inr (hexpression _ k.kind.mem_all _ hcontent hkind)

/-- Such nodes only stand in one another, and in no place of a name. -/
theorem kind_mem_outer (hn : n.toValue.all (·.isShaped .declared) = true)
    (h : n.Holds f m.toValue) (hm : m.kind ∈ Kind.outer) :
    n.kind ∈ Kind.outer ∧ f ∉ CSharp.memberFields n.kind := by
  have htable : ∀ k ∈ Kind.all, ∀ field ∈ Field.all,
      ∀ content ∈ Grammar.declared.content? k field, ∀ l ∈ content.kinds, l ∈ Kind.outer →
        k ∈ Kind.outer ∧ field ∉ CSharp.memberFields k := by decide +kernel
  rcases kind_mem_of_holds hn h with ⟨content, hcontent, hkind⟩ | hexpression
  · exact htable _ n.kind.mem_all f f.mem_all content hcontent _ hkind hm
  · have hother : ∀ k ∈ Kind.expressions, k ∉ Kind.outer := by decide
    exact absurd hm (hother _ hexpression)

end Node

namespace CSharp

/-! ### Places -/

/-- What counts of the place of a name. -/
structure NamePlace where
  /-- It is the name or the callee of something, or a part of one. -/
  isMember : Bool := false
  /-- It is the key of an assignment in an object literal, or a part of one. -/
  isKey : Bool := false
deriving DecidableEq

/-- What counts of the place of a value in a field of a node, from what counts of the node's. The
receiver of a property is in no place of a member. -/
def NamePlace.within (s : NamePlace) (n : Node) (f : Field) : NamePlace where
  isMember := (memberFields n.kind).contains f ||
    (Kind.assignments.contains n.kind && f == .name) ||
    (s.isMember && !(n.kind == .propertyAccessExpression && f == .expression))
  isKey := s.isKey || (Kind.assignments.contains n.kind && f == .name)

/-- Where a name stands in a tree that a call has reached. -/
abbrev NameStands (root : Value) (around : List Node) (v : Value) (s : NamePlace) : Prop :=
  Value.Stands {} NamePlace.within root around v s

/-- Names are only capitalised in the place of a member, and only quoted in that of a key. -/
structure Flags.Spells (c : Flags) (s : NamePlace) : Prop where
  member : s.isMember = false → c.memberPosition.truthy = false
  key : s.isKey = false → c.identifierAsString.truthy = false

variable {n : Node} {field : Field} {s : NamePlace}

/-- The place of a key reaches down to all parts. -/
theorem NamePlace.isKey_of_within (h : (s.within n field).isKey = false) : s.isKey = false := by
  simp only [within, Bool.or_eq_false_iff] at h
  exact h.1

/-- The place of a member reaches down to all parts but a receiver. -/
theorem NamePlace.isMember_of_within
    (hfield : n.kind = .propertyAccessExpression → field ≠ .expression)
    (h : (s.within n field).isMember = false) : s.isMember = false := by
  simp only [within, Bool.or_eq_false_iff, Bool.and_eq_false_iff, Bool.not_eq_false',
    Bool.and_eq_true, beq_iff_eq] at h
  exact h.2.resolve_right fun hreceiver => hfield hreceiver.1 hreceiver.2

/-- A name or a callee stands in the place of a member. -/
theorem NamePlace.within_member (h : field ∈ memberFields n.kind) :
    (s.within n field).isMember = true := by
  simp [within, h]

/-- The name of an assignment stands in both places. -/
theorem NamePlace.within_key (h : n.kind ∈ Kind.assignments) :
    (s.within n .name).isMember = true ∧ (s.within n .name).isKey = true := by
  simp [within, h]

/-- The law is handed on by every rule. -/
theorem spells_of_hands {c d : Flags} {v : Value} (hc : c.Spells s) (h : Hands c n field v d) :
    d.Spells (s.within n field) := by
  have key (hfalse : (s.within n field).isKey = false) : c.identifierAsString.truthy = false :=
    hc.key (NamePlace.isKey_of_within hfalse)
  have member (hfield : n.kind = .propertyAccessExpression → field ≠ .expression)
      (hfalse : (s.within n field).isMember = false) : c.memberPosition.truthy = false :=
    hc.member (NamePlace.isMember_of_within hfield hfalse)
  cases h with
  | same hown _ =>
    refine ⟨member ?_, key⟩
    rintro hk rfl
    rw [hk] at hown
    exact hown (by decide)
  | member hfield => exact ⟨fun h => by simp [NamePlace.within_member hfield] at h, key⟩
  | receiver hk => exact ⟨fun _ => rfl, key⟩
  | initializer hk => exact ⟨member (by simp [hk]), key⟩
  | pair hk _ _ => exact ⟨member (by simp [hk]), key⟩
  | pairKey hk _ => exact ⟨fun _ => rfl, fun h => by simp [NamePlace.within_key hk] at h⟩
  | pairValue field hk _ =>
    have hother : ∀ k ∈ Kind.assignments, k ≠ .propertyAccessExpression := by decide
    exact ⟨member fun hkind => absurd hkind (hother _ hk), key⟩
  | propertyName hk _ =>
    exact ⟨fun h => by simp [NamePlace.within_key hk] at h,
      fun h => by simp [NamePlace.within_key hk] at h⟩
  | inClass hk _ => exact ⟨member (by simp [hk]), key⟩
  | inInterface hk _ => exact ⟨member (by simp [hk]), key⟩

variable {root v : Value} {checker : Checker} {indent : Indent} {preferStruct : Data}
  {around : List Node} {c : Flags}

/-- Every call obeys the law, at a place where its value stands below the nodes that are being
rendered. -/
theorem exists_spells_of_reaches
    (h : (backend indent preferStruct).Reaches checker root around c v) :
    ∃ s : NamePlace, NameStands root around v s ∧ c.Spells s :=
  exists_place_of_reaches ⟨fun _ => rfl, fun _ => rfl⟩
    (fun _ _ _ _ _ _ hc hd => spells_of_hands hc hd) h

/-! ### The spelling outside of these places -/

/-- The spelling of a name where it stands for a value: a reserved word is escaped, and `undefined`
is null. -/
def localName (s : String) : String := if s = "undefined" then "null" else safeName s

/-- Escaping changes the reserved words. -/
theorem safeName_eq_self_iff {s : String} : safeName s = s ↔ s ∉ reservedWords := by
  unfold safeName
  simp only [List.contains_iff_mem]
  split
  · rename_i hmem
    refine iff_of_false (fun heq => ?_) (not_not_intro hmem)
    have hlength := congrArg String.length heq
    rw [String.length_append] at hlength
    have : "@".length = 1 := rfl
    omega
  · rename_i hmem
    exact iff_of_true rfl hmem

/-- The names that are spelled as they are: all but reserved words and `undefined`. -/
theorem localName_eq_self_iff {s : String} :
    localName s = s ↔ s ∉ reservedWords ∧ s ≠ "undefined" := by
  unfold localName
  split
  · rename_i heq
    subst heq
    exact iff_of_false (by decide) fun h => h.2 rfl
  · rename_i hne
    rw [safeName_eq_self_iff]
    exact (and_iff_left hne).symm

/-- An identifier in no place of a member or a key. -/
theorem convert_of_isName {s : String} {m : Node} (hm : m.IsName s)
    (hmember : c.memberPosition.truthy = false) (hkey : c.identifierAsString.truthy = false) :
    (backend indent preferStruct).convert checker c m.toValue =
      pure (row [.text (localName s)]) := by
  have hrule : rule? indent m.kind = some identifier := by
    rw [hm.kind]
    rfl
  rw [convert_of_rule hrule]
  unfold identifier
  dsimp only
  rw [hm.text, if_neg (by simp [Backend.view, hkey]), if_neg (by simp [Backend.view, hmember])]
  have htext : (Value.text s).isText "undefined" = true ↔ s = "undefined" := by
    simp [Value.isText, Value.text?]
  unfold localName
  simp only [hm.kind, htext, true_and]
  split
  · rfl
  · rfl

/-! ### Statements -/

/-- In a tree of the language, statements and the parts that only statements have stand in no place
of a member or a key. -/
theorem eq_plain_of_stands (hroot : root.all (·.isShaped .declared) = true) {m : Node}
    (h : NameStands root around m.toValue s) (hm : m.kind ∈ Kind.outer) : s = {} := by
  generalize hw : m.toValue = w at h
  induction h generalizing m with
  | root => rfl
  | @within around n s f v hn hv ih =>
    subst hw
    obtain ⟨hkind, hfield⟩ := Node.kind_mem_outer (hn.all hroot) hv hm
    rw [ih hkind rfl]
    have hassignment : n.kind ∉ Kind.assignments := by
      have hother : ∀ k ∈ Kind.outer, k ∉ Kind.assignments := by decide
      exact hother _ hkind
    simp [NamePlace.within, hfield, hassignment]

end CSharp

end CodeSample

import CodeSample.Proofs.TypeCodec
import CodeSample.Proofs.TypeNames
import CodeSample.Syntax.Codec

/-!
# What a tree that was read is like

A tree can be written again, and read once more, if what its parser told about the source is made of
texts: the recorded sources, the texts of names and literals, and the names in types.

* `Data.isLegible` is the check of a datum; it looks at the members that describe nodes and types;
* `Node.IsMade` is what holds of each node that was read from such a datum, and `Value.IsRead` says
  it of a whole tree;
* `isRead_of_ofExchange`: all that is read from such a datum is so, node by node.
-/

namespace CodeSample

/-! ### Legible data -/

/-- Whether nodes of a kind get a source from their text. -/
def Kind.isLiteral (k : Kind) : Bool := [.identifier, .stringLiteral, .numericLiteral].contains k

namespace Data

/-- Whether the names of the type that a datum describes, if it describes one, are texts, and its
aliases texts or null. -/
def describesSpelled (d : Data) : Bool :=
  match Ty.ofData? d with
  | .ok (some t) => t.names.all isText
  | _ => true

/-- Whether a datum is a text or null. -/
def isTextOrNull (d : Data) : Bool := d.isText || d == null

mutual

/-- Whether in all nodes that a datum describes the source is a text or null, the text of a name or
a literal is a text, and so are the names in the type. -/
def isLegible : Data → Bool
  | object ms =>
    match Kind.ofMembers ms with
    | .ok kind => isLegibleNode kind ms
    | .error _ => true
  | list ds => areLegible ds
  | _ => true

/-- Whether several data are legible. -/
def areLegible : List Data → Bool
  | [] => true
  | d :: ds => isLegible d && areLegible ds

/-- Whether the members of the object of a node are legible. -/
def isLegibleNode (kind : Kind) : List (String × Data) → Bool
  | [] => true
  | (key, d) :: ms =>
    (match kind.role? key with
      | some .source => d.isTextOrNull
      | some .type => d.describesSpelled
      | some (.field f) => isLegible d && (f != .text || !kind.isLiteral || d.isText)
      | _ => true) && isLegibleNode kind ms

end

end Data

/-! ### Trees that were read -/

/-- A value is a text or null. -/
def Value.IsTextOrNull (v : Value) : Prop := v = .null ∨ ∃ s, v = .text s

/-- A type that was read, with texts as names. -/
structure Ty.IsRead (t : Ty) : Prop where
  whole : t.isWhole = true
  spelled : t.Spelled

/-- A node as it is made when it is read from a legible datum. -/
structure Node.IsMade (n : Node) : Prop where
  length : n.fields.length = n.kind.slots.length
  source : n.source.IsTextOrNull
  /-- Making the node once more gives it no other source. -/
  settled : n.withSource = .ok n
  type : ∀ t, n.type? = some t → n.kind.typed = true ∧ t.IsRead
  text : n.kind.isLiteral = true → ∃ s, n.get .text = .text s

namespace Value

mutual

/-- Every node in a value was made of legible parts, and there are no objects besides. -/
def IsRead : Value → Prop
  | list vs => AreRead vs
  | object _ => False
  | node kind pos source type? fields =>
    Node.IsMade ⟨kind, pos, source, type?, fields⟩ ∧ AreRead fields
  | _ => True

/-- All values are as they are read. -/
def AreRead : List Value → Prop
  | [] => True
  | v :: vs => IsRead v ∧ AreRead vs

end

/-- Values are as they are read when each of them is. -/
theorem areRead_iff {vs : List Value} : AreRead vs ↔ ∀ v ∈ vs, v.IsRead := by
  induction vs with
  | nil => simp [AreRead]
  | cons v vs ih => simp [AreRead, ih]

end Value

/-- A part that was read from a legible member of the object of a node. -/
def Part.IsRead (kind : Kind) : Part → Prop
  | pos _ => True
  | source v => v.IsTextOrNull
  | type t? => ∀ t, t? = some t → kind.typed = true ∧ t.IsRead
  | field f v => v.IsRead ∧ (f = .text → kind.isLiteral = true → ∃ s, v = .text s)

/-! ### Parts -/

namespace Part

variable {parts : List Part}

/-- The source that parts give is one of them. -/
theorem mem_of_source? {v : Value} (h : source? parts = some v) : source v ∈ parts := by
  obtain ⟨p, hp, hv⟩ := List.exists_of_findSome?_eq_some h
  cases p with
  | source w =>
    obtain rfl := Option.some.inj hv
    exact hp
  | _ => cases hv

/-- So is the type, when it is not null. -/
theorem mem_of_type? {t : Ty} (h : type? parts = some t) : type (some t) ∈ parts := by
  obtain ⟨p, hp, hv⟩ := List.exists_of_findSome?_eq_some (Option.join_eq_some_iff.1 h)
  cases p with
  | type u? =>
    obtain rfl := Option.some.inj hv
    exact hp
  | _ => cases hv

/-- And so is what they give for a field. -/
theorem mem_of_field? {f : Field} {v : Value} (h : field? parts f = some v) :
    field f v ∈ parts := by
  obtain ⟨p, hp, hv⟩ := List.exists_of_findSome?_eq_some h
  cases p with
  | field g w =>
    dsimp only at hv
    split at hv
    · rename_i hg
      obtain rfl := Option.some.inj hv
      rwa [← hg]
    · cases hv
  | _ => cases hv

end Part

/-- What stands in a field that is left out is as it is read. -/
theorem Default.isRead_value (d : Default) : d.value.IsRead := by
  cases d <;> simp [Default.value, Value.IsRead, Value.AreRead]

/-- What fills a slot was read, or stands there because nothing was. -/
theorem Slot.isRead_of_fill? {kind : Kind} {parts : List Part} {slot : Slot} {v : Value}
    (hparts : ∀ p ∈ parts, p.IsRead kind) (h : slot.fill? parts = some v) : v.IsRead := by
  unfold fill? at h
  rw [Option.or_eq_some_iff] at h
  rcases h with h | ⟨-, h⟩
  · exact (hparts _ (Part.mem_of_field? h)).1
  · obtain ⟨d, -, rfl⟩ := Option.map_eq_some_iff.1 h
    exact d.isRead_value

/-! ### Making a node -/

namespace Node

variable {n m : Node}

/-- Making a node changes its source at most: to the one that it gets from its text or its type. -/
theorem source_of_withSource (h : n.withSource = .ok m) :
    m = n ∨ ∃ s, n.defaultSource = .ok s ∧ m = { n with source := s } := by
  unfold withSource at h
  split at h
  · exact Or.inl (Except.ok.inj h).symm
  · obtain ⟨s, hs, h⟩ := Fault.exists_of_bind h
    exact Or.inr ⟨s, hs, (Except.ok.inj h).symm⟩

/-- The source that a node gets does not depend on the one that it has, or is that one. -/
theorem defaultSource_again {s : Value} (h : n.defaultSource = .ok s) :
    Node.defaultSource { n with source := s } = .ok s := by
  have hget : Node.get { n with source := s } .text = n.get .text := rfl
  unfold defaultSource at h ⊢
  rw [hget]
  cases hk : n.kind <;> simp only [hk] at h ⊢ <;> try exact h
  cases ht : n.type? <;> simp only [ht] at h ⊢
  exact h

/-- A node that was made once is not changed by making it again. -/
theorem withSource_idem (h : n.withSource = .ok m) : m.withSource = .ok m := by
  unfold withSource at h ⊢
  split at h
  · rename_i htruthy
    obtain rfl := Except.ok.inj h
    rw [if_pos htruthy]
  · obtain ⟨s, hs, h⟩ := Fault.exists_of_bind h
    obtain rfl := Except.ok.inj h
    split
    · rfl
    · rw [defaultSource_again hs]
      rfl

/-- The source that a node gets from its text or its type is a text. -/
theorem isTextOrNull_defaultSource (hsource : n.source.IsTextOrNull)
    (htype : ∀ t, n.type? = some t → t.Spelled)
    (htext : n.kind.isLiteral = true → ∃ s, n.get .text = .text s) {v : Value}
    (h : n.defaultSource = .ok v) : v.IsTextOrNull := by
  unfold defaultSource at h
  split at h
  · rename_i hk
    obtain ⟨s, hs⟩ := htext (by rw [hk]; rfl)
    exact Or.inr ⟨s, by rw [← Except.ok.inj h, hs]⟩
  · rename_i hk
    obtain ⟨s, hs⟩ := htext (by rw [hk]; rfl)
    exact Or.inr ⟨s, by rw [← Except.ok.inj h, hs]⟩
  · split at h
    · exact Or.inr ⟨_, (Except.ok.inj h).symm⟩
    · cases h
  · split at h
    · rw [← Except.ok.inj h]
      exact hsource
    · rename_i t ht
      rw [Ty.describe_of_spelled t (htype t ht)] at h
      exact Or.inr ⟨t.spelling, (Except.ok.inj h).symm⟩
  · rw [← Except.ok.inj h]
    exact hsource

/-- No slot stays empty when nothing is missing. -/
theorem exists_fill? {kind : Kind} {parts : List Part} (h : missing kind parts = []) {slot : Slot}
    (hslot : slot ∈ kind.slots) : ∃ v, slot.fill? parts = some v := by
  unfold missing at h
  rw [List.map_eq_nil_iff, List.filter_eq_nil_iff] at h
  have hsome := h slot hslot
  cases hv : slot.fill? parts with
  | none => exact absurd (by rw [hv]; rfl) hsome
  | some v => exact ⟨v, rfl⟩

/-- The node that is made of parts, before it gets a source. -/
def assembled (kind : Kind) (parts : List Part) : Node where
  kind := kind
  pos := (Part.pos? parts).getD .unknown
  source := (Part.source? parts).getD (.text "")
  type? := Part.type? parts
  fields := kind.slots.map fun slot => (slot.fill? parts).getD .null

/-- A node can be made of parts when no part that it needs is missing, and what they are assembled
to can be given its source. -/
theorem ofParts_eq_ok {kind : Kind} {parts : List Part} {n : Node} :
    ofParts kind parts = .ok n ↔
      missing kind parts = [] ∧ (assembled kind parts).withSource = .ok n := by
  unfold ofParts
  split
  · rename_i h
    rw [h]
    exact ⟨fun h => ⟨rfl, h⟩, And.right⟩
  · rename_i hne
    constructor
    · intro h
      cases h
    · intro h
      exact absurd h.1 hne

/-- A name or a literal that was assembled has the part for its text. -/
theorem text_part_mem {kind : Kind} {parts : List Part} (h : missing kind parts = [])
    (hk : kind.isLiteral = true) : Part.field .text ((assembled kind parts).get .text) ∈ parts := by
  have hslots : kind.slots = [.required .text] := by
    revert hk
    cases kind <;> decide
  obtain ⟨v, hv⟩ : ∃ v, Slot.fill? parts (.required .text) = some v :=
    exists_fill? h (by rw [hslots]; simp)
  have hget : (assembled kind parts).get .text = v := by
    unfold get assembled Kind.index?
    rw [hslots]
    show (Slot.fill? parts (.required .text)).getD .null = v
    rw [hv]
    rfl
  unfold Slot.fill? at hv
  rw [Option.map_none, Option.or_none] at hv
  rw [hget]
  exact Part.mem_of_field? hv

/-- A name or a literal that was assembled has a text. -/
theorem text_assembled {kind : Kind} {parts : List Part} (hparts : ∀ p ∈ parts, p.IsRead kind)
    (h : missing kind parts = []) (hk : kind.isLiteral = true) :
    ∃ s, (assembled kind parts).get .text = .text s :=
  (hparts _ (text_part_mem h hk)).2 rfl hk

/-- A node that is made of legible parts. -/
theorem isMade_of_ofParts {kind : Kind} {parts : List Part} {n : Node}
    (hparts : ∀ p ∈ parts, p.IsRead kind) (h : ofParts kind parts = .ok n) :
    n.IsMade ∧ Value.AreRead n.fields := by
  obtain ⟨hmissing, h⟩ := ofParts_eq_ok.1 h
  have hfields : Value.AreRead (assembled kind parts).fields := by
    rw [Value.areRead_iff]
    intro v hv
    obtain ⟨slot, hslot, rfl⟩ := List.mem_map.1 hv
    obtain ⟨w, hw⟩ := exists_fill? hmissing hslot
    rw [hw]
    exact Slot.isRead_of_fill? hparts hw
  have hsource : (assembled kind parts).source.IsTextOrNull := by
    show ((Part.source? parts).getD (.text "")).IsTextOrNull
    cases hv : Part.source? parts with
    | none => exact Or.inr ⟨"", rfl⟩
    | some v => exact hparts _ (Part.mem_of_source? hv)
  have htype : ∀ t, (assembled kind parts).type? = some t → kind.typed = true ∧ t.IsRead :=
    fun t ht => hparts _ (Part.mem_of_type? ht) t rfl
  have htext : kind.isLiteral = true → ∃ s, (assembled kind parts).get .text = .text s :=
    text_assembled hparts hmissing
  have hlength : (assembled kind parts).fields.length = kind.slots.length := List.length_map _
  rcases source_of_withSource h with rfl | ⟨s, hs, rfl⟩
  · exact ⟨⟨hlength, hsource, h, htype, htext⟩, hfields⟩
  · refine ⟨⟨hlength, ?_, withSource_idem h, htype, htext⟩, hfields⟩
    exact isTextOrNull_defaultSource hsource (fun t ht => (htype t ht).2.spelled) htext hs

end Node

/-! ### Reading -/

/-- Only nodes that carry types have a member for one. -/
theorem Kind.typed_of_role? {k : Kind} {key : String} (h : k.role? key = some .type) :
    k.typed = true := by
  unfold role? at h
  split at h
  · cases h
  · cases h
  · cases h
  · split at h
    · assumption
    · cases h
  · obtain ⟨slot, -, h⟩ := Option.map_eq_some_iff.1 h
    cases h

/-- The type that is read from a legible member. -/
theorem Ty.isRead_of_ofData? {d : Data} {t : Ty} (hd : d.describesSpelled = true)
    (h : Ty.ofData? d = .ok (some t)) : t.IsRead := by
  unfold Data.describesSpelled at hd
  rw [h] at hd
  refine ⟨?_, (spelled_iff t).2 (List.all_eq_true.1 hd)⟩
  cases d with
  | null => cases h
  | _ =>
    obtain ⟨u, hu, h⟩ := Fault.exists_of_bind h
    obtain rfl := Option.some.inj (Except.ok.inj h)
    exact isWhole_of_ofData hu

namespace Value

/-- A text is read as that text. -/
theorem exists_text_of_ofExchange {d : Data} {v : Value} (hd : d.isText = true)
    (h : ofExchange d = .ok v) : ∃ s, v = .text s := by
  obtain ⟨s, rfl⟩ := Ty.isText_iff.1 hd
  rw [ofExchange] at h
  exact ⟨s, (Except.ok.inj h).symm⟩

/-- A text is read as that text, and null as null. -/
theorem isTextOrNull_of_ofExchange {d : Data} {v : Value} (hd : d.isTextOrNull = true)
    (h : ofExchange d = .ok v) : v.IsTextOrNull := by
  unfold Data.isTextOrNull at hd
  rw [Bool.or_eq_true, beq_iff_eq] at hd
  rcases hd with hd | rfl
  · exact Or.inr (exists_text_of_ofExchange hd h)
  · rw [ofExchange] at h
    exact Or.inl (Except.ok.inj h).symm

mutual

/-- What is read of legible data was made of legible parts. -/
theorem isRead_of_ofExchange : ∀ {d : Data} {v : Value},
    d.isLegible = true → ofExchange d = .ok v → v.IsRead
  | .object ms, v, hd, h => by
    rw [ofExchange] at h
    obtain ⟨kind, hkind, h⟩ := Fault.exists_of_bind h
    obtain ⟨parts, hparts, h⟩ := Fault.exists_of_bind h
    obtain ⟨n, hn, h⟩ := Fault.exists_of_bind h
    obtain rfl := Except.ok.inj h
    rw [Data.isLegible, hkind] at hd
    exact Node.isMade_of_ofParts (isRead_of_partsOf hd hparts) hn
  | .list ds, v, hd, h => by
    rw [ofExchange] at h
    obtain ⟨vs, hvs, h⟩ := Fault.exists_of_bind h
    obtain rfl := Except.ok.inj h
    rw [Data.isLegible] at hd
    rw [IsRead]
    exact areRead_of_itemsOf hd hvs
  | .null, v, _, h | .bool _, v, _, h | .int _, v, _, h | .float _, v, _, h
  | .text _, v, _, h => by
    rw [ofExchange] at h
    obtain rfl := Except.ok.inj h
    simp [IsRead]

/-- Items of legible lists are as they are read. -/
theorem areRead_of_itemsOf : ∀ {ds : List Data} {vs : List Value},
    Data.areLegible ds = true → itemsOf ds = .ok vs → AreRead vs
  | [], vs, _, h => by
    rw [itemsOf] at h
    obtain rfl := Except.ok.inj h
    exact trivial
  | d :: ds, vs, hd, h => by
    rw [itemsOf] at h
    obtain ⟨w, hw, h⟩ := Fault.exists_of_bind h
    obtain ⟨ws, hws, h⟩ := Fault.exists_of_bind h
    obtain rfl := Except.ok.inj h
    rw [Data.areLegible, Bool.and_eq_true] at hd
    exact ⟨isRead_of_ofExchange hd.1 hw, areRead_of_itemsOf hd.2 hws⟩

/-- The members of a legible object are read as parts of its node. -/
theorem isRead_of_partsOf {kind : Kind} : ∀ {ms : List (String × Data)} {parts : List Part},
    Data.isLegibleNode kind ms = true → partsOf kind ms = .ok parts →
      ∀ p ∈ parts, p.IsRead kind
  | [], parts, _, h => by
    rw [partsOf] at h
    obtain rfl := Except.ok.inj h
    simp
  | (key, d) :: ms, parts, hd, h => by
    rw [partsOf] at h
    rw [Data.isLegibleNode, Bool.and_eq_true] at hd
    cases hrole : kind.role? key with
    | none =>
      rw [hrole] at h
      cases h
    | some role =>
      rw [hrole] at h hd
      cases role with
      | kind => exact isRead_of_partsOf hd.2 h
      | pos =>
        obtain ⟨p, -, h⟩ := Fault.exists_of_bind h
        obtain ⟨rest, hrest, h⟩ := Fault.exists_of_bind h
        obtain rfl := Except.ok.inj h
        rw [List.forall_mem_cons]
        exact ⟨trivial, isRead_of_partsOf hd.2 hrest⟩
      | source =>
        obtain ⟨w, hw, h⟩ := Fault.exists_of_bind h
        obtain ⟨rest, hrest, h⟩ := Fault.exists_of_bind h
        obtain rfl := Except.ok.inj h
        rw [List.forall_mem_cons]
        exact ⟨isTextOrNull_of_ofExchange hd.1 hw, isRead_of_partsOf hd.2 hrest⟩
      | type =>
        obtain ⟨t?, ht, h⟩ := Fault.exists_of_bind h
        obtain ⟨rest, hrest, h⟩ := Fault.exists_of_bind h
        obtain rfl := Except.ok.inj h
        rw [List.forall_mem_cons]
        refine ⟨?_, isRead_of_partsOf hd.2 hrest⟩
        rintro t rfl
        exact ⟨Kind.typed_of_role? hrole, Ty.isRead_of_ofData? hd.1 ht⟩
      | field f =>
        obtain ⟨w, hw, h⟩ := Fault.exists_of_bind h
        obtain ⟨rest, hrest, h⟩ := Fault.exists_of_bind h
        obtain rfl := Except.ok.inj h
        rw [List.forall_mem_cons]
        have hlegible := (Bool.and_eq_true _ _ ▸ hd.1)
        refine ⟨⟨isRead_of_ofExchange hlegible.1 hw, ?_⟩, isRead_of_partsOf hd.2 hrest⟩
        rintro rfl hk
        have htext : d.isText = true := by simpa [hk] using hlegible.2
        exact exists_text_of_ofExchange htext hw

end

end Value

end CodeSample

import CodeSample.Proofs.NodeParts

/-!
# The data that describe nodes

A datum is read as a node just when it has the form of one: an object that names a kind, with keys
of that kind only and all that have to be there, a place of two parts, a type that can be read, and
objects of that form wherever one stands in another field. The order of the members counts nowhere.

* `Data.IsNode` is the form of a node, `Data.StandsIn` says where an object stands in a datum;
* `Data.isOrderly` is the check of what the form says nothing about: the parts of places, the names
  and members in types, the texts of string literals;
* `Node.ofData_grammar`: what is orderly is read just if it has the form, what has not is found
  malformed, and data that differ in order only are read alike.
-/

namespace CodeSample

/-! ### The form of a node -/

namespace Data

/-- The object with some members stands in a datum: it is the datum, or it stands in an item of the
list that the datum is. -/
inductive StandsIn (inner : List (String × Data)) : Data → Prop where
  | itself : StandsIn inner (.object inner)
  | item {d : Data} {ds : List Data} (hmem : d ∈ ds) (h : StandsIn inner d) :
      StandsIn inner (.list ds)

/-- The form of a node. -/
inductive IsNode : Data → Prop where
  | object {kind : Kind} {ms : List (String × Data)}
      (hkind : get? ms "kind" = some (.text kind.name))
      (hkeys : ∀ m ∈ ms, m.1 ∈ kind.keys)
      (hrequired : ∀ slot ∈ kind.slots, slot.default? = none →
        slot.field.key ∈ ms.map Prod.fst)
      (hplace : ∀ d, ("pos", d) ∈ ms → ∃ line col, d = .list [line, col])
      (htype : ∀ d, ("typ", d) ∈ ms → d = .null ∨ ∃ t, Ty.ofData d = .ok t)
      (hnested : ∀ m ∈ ms, m.1 ∉ ["kind", "pos", "typ"] →
        ∀ inner, StandsIn inner m.2 → IsNode (.object inner)) :
      IsNode (.object ms)

/-! ### Orderly data -/

/-- Whether a datum, if it is a place, has whole numbers for its line and its column. -/
def isOrderlyPlace : Data → Bool
  | list [.int _, .int _] => true
  | list [_, _] => false
  | _ => true

mutual

/-- Whether in all nodes that a datum describes the place has whole numbers, the type is orderly,
and the text of a string literal is a text. -/
def isOrderly : Data → Bool
  | object ms =>
    match Kind.ofMembers ms with
    | .ok kind => isOrderlyNode kind ms
    | .error _ => true
  | list ds => areOrderly ds
  | _ => true

/-- Whether several data are orderly. -/
def areOrderly : List Data → Bool
  | [] => true
  | d :: ds => isOrderly d && areOrderly ds

/-- Whether the members of the object of a node of a kind are orderly. -/
def isOrderlyNode (kind : Kind) : List (String × Data) → Bool
  | [] => true
  | (key, d) :: ms =>
    (match kind.role? key with
      | some .pos => d.isOrderlyPlace
      | some .type => d.isOrderlyType
      | some .source => isOrderly d
      | some (.field f) => isOrderly d && (f != .text || kind != .stringLiteral || d.isText)
      | _ => true) && isOrderlyNode kind ms

end

/-- What is asked of the datum at a key of a node's object. -/
def fitsNodeRole (kind : Kind) (d : Data) : Option Role → Prop
  | some .pos => d.isOrderlyPlace = true
  | some .type => d.isOrderlyType = true
  | some .source => d.isOrderly = true
  | some (.field f) =>
    d.isOrderly = true ∧ (f = .text → kind = .stringLiteral → ∃ s, d = .text s)
  | _ => True

variable {ms : List (String × Data)} {kind : Kind} {key : String} {d : Data}

/-- Data are orderly if each of them is. -/
theorem areOrderly_iff {ds : List Data} :
    areOrderly ds = true ↔ ∀ d ∈ ds, d.isOrderly = true := by
  induction ds with
  | nil => simp [areOrderly]
  | cons d ds ih => rw [areOrderly, Bool.and_eq_true, ih, List.forall_mem_cons]

/-- In an orderly node the datum at each key fits what the key is for. -/
theorem fitsNodeRole_of_mem (h : isOrderlyNode kind ms = true) (hmem : (key, d) ∈ ms) :
    d.fitsNodeRole kind (kind.role? key) := by
  induction ms with
  | nil => cases hmem
  | cons m ms ih =>
    obtain ⟨k, x⟩ := m
    rw [isOrderlyNode, Bool.and_eq_true] at h
    rcases List.mem_cons.1 hmem with heq | hmem
    · obtain ⟨rfl, rfl⟩ := Prod.mk.inj heq
      cases hrole : kind.role? key with
      | none => trivial
      | some role =>
        rw [hrole] at h
        cases role with
        | kind => trivial
        | pos | source | type => exact h.1
        | field f =>
          have hfield := (Bool.and_eq_true _ _ ▸ h.1)
          refine ⟨hfield.1, ?_⟩
          rintro rfl rfl
          exact Ty.isText_iff.1 (by simpa using hfield.2)
    · exact ih h.2 hmem

end Data

/-! ### Reading one member -/

/-- There is something made of an outcome exactly if it is an answer. -/
theorem Fault.exists_bind_pure_iff {α β : Type} {x : Except Fault α} {f : α → β} :
    (∃ b, (do return f (← x)) = .ok b) ↔ ∃ a, x = .ok a := by
  cases x with
  | error fault =>
    constructor <;> rintro ⟨_, ⟨⟩⟩
  | ok a => exact ⟨fun _ => ⟨a, rfl⟩, fun _ => ⟨f a, rfl⟩⟩

section

variable {kind : Kind} {key : String} {d e : Data}

/-- What is no list of two is no place. -/
theorem Pos.ofData_eq (h : ∀ line col, d ≠ .list [line, col]) :
    Pos.ofData d = .error (.malformed (.position d)) := by
  unfold ofData
  split
  · exact absurd rfl (h _ _)
  · rfl

/-- An orderly place has whole numbers for its line and its column. -/
theorem Data.exists_int_of_isOrderlyPlace {line col : Data}
    (h : (Data.list [line, col]).isOrderlyPlace = true) :
    ∃ m n : Int, line = .int m ∧ col = .int n := by
  cases line with
  | int m =>
    cases col with
    | int n => exact ⟨m, n, rfl, rfl⟩
    | _ => cases h
  | _ => cases h

/-- An orderly datum is a place exactly if it is a list of two. -/
theorem Pos.exists_ofData_iff (h : d.isOrderlyPlace = true) :
    (∃ p, Pos.ofData d = .ok p) ↔ ∃ line col, d = .list [line, col] := by
  constructor
  · rintro ⟨p, hp⟩
    by_contra hne
    rw [Pos.ofData_eq fun line col heq => hne ⟨line, col, heq⟩] at hp
    cases hp
  · rintro ⟨line, col, rfl⟩
    obtain ⟨m, n, rfl, rfl⟩ := Data.exists_int_of_isOrderlyPlace h
    exact ⟨⟨m, n⟩, rfl⟩

/-- Orderly data that differ in order only are the same place. -/
theorem Pos.concur_ofData (hd : d.isOrderlyPlace = true) (h : d.Reordered e) :
    Concur Eq (Pos.ofData e) (Pos.ofData d) := by
  by_cases hlist : ∃ line col, d = .list [line, col]
  · obtain ⟨line, col, rfl⟩ := hlist
    obtain ⟨m, n, rfl, rfl⟩ := Data.exists_int_of_isOrderlyPlace hd
    rw [h.of_int_pair]
    exact .ok rfl
  · have he : ∀ line col, e ≠ .list [line, col] := by
      rintro line col rfl
      exact hlist h.exists_pair
    rw [Pos.ofData_eq he, Pos.ofData_eq fun line col heq => hlist ⟨line, col, heq⟩]
    exact Concur.malformed _ _

/-- Any datum but null has to be read as a type. -/
theorem Ty.ofData?_of_ne_null (h : d ≠ .null) :
    Ty.ofData? d = do return some (← Ty.ofData d) := by
  unfold Ty.ofData?
  split
  · exact absurd rfl h
  · rfl

/-- A type that was read where there may be none was read from the datum. -/
theorem Ty.ofData_of_ofData? {t : Ty} (h : Ty.ofData? d = .ok (some t)) : Ty.ofData d = .ok t := by
  by_cases hd : d = .null
  · subst hd
    cases h
  · rw [Ty.ofData?_of_ne_null hd] at h
    obtain ⟨u, hu, h⟩ := Fault.exists_of_bind h
    obtain rfl := Option.some.inj (Except.ok.inj h)
    exact hu

/-- A type may be read where the datum is null or describes one. -/
theorem Ty.exists_ofData?_iff :
    (∃ t?, Ty.ofData? d = .ok t?) ↔ d = .null ∨ ∃ t, Ty.ofData d = .ok t := by
  by_cases hd : d = .null
  · subst hd
    exact ⟨fun _ => Or.inl rfl, fun _ => ⟨none, rfl⟩⟩
  · rw [Ty.ofData?_of_ne_null hd]
    constructor
    · rintro ⟨t?, h⟩
      obtain ⟨t, ht, -⟩ := Fault.exists_of_bind h
      exact Or.inr ⟨t, ht⟩
    · rintro (h | ⟨t, ht⟩)
      · exact absurd h hd
      · rw [ht]
        exact ⟨some t, rfl⟩

/-- Orderly data that differ in order only are the same type, or none on both sides. -/
theorem Ty.concur_ofData? (hnames : d.hasDistinctNames = true) (hd : d.isOrderlyType = true)
    (h : d.Reordered e) : Concur Eq (Ty.ofData? e) (Ty.ofData? d) := by
  by_cases hnull : d = .null
  · subst hnull
    rw [h.null_iff.2 rfl]
    exact .ok rfl
  · rw [Ty.ofData?_of_ne_null hnull, Ty.ofData?_of_ne_null (mt h.null_iff.1 hnull)]
    refine ((Ty.concur_ofData d hnames e h).1 hd).bind fun t' t ht => ?_
    rw [ht]
    exact .ok rfl

namespace Value

/-- An orderly member is read alike in another order, if what is read in a field is. -/
theorem concur_partOf (hfits : d.fitsNodeRole kind (kind.role? key))
    (hnames : d.hasDistinctNames = true) (h : d.Reordered e)
    (hcontent : d.isOrderly = true → Concur Eq (ofExchange e) (ofExchange d)) :
    Concur Eq (partOf kind key e) (partOf kind key d) := by
  unfold partOf
  cases hrole : kind.role? key with
  | none => exact Concur.malformed _ _
  | some role =>
    rw [hrole] at hfits
    cases role with
    | kind => exact .ok rfl
    | pos =>
      refine (Pos.concur_ofData hfits h).bind fun p' p hp => ?_
      rw [hp]
      exact .ok rfl
    | type =>
      refine (Ty.concur_ofData? hnames hfits h).bind fun t' t ht => ?_
      rw [ht]
      exact .ok rfl
    | source =>
      refine (hcontent hfits).bind fun v' v hv => ?_
      rw [hv]
      exact .ok rfl
    | field f =>
      refine (hcontent hfits.1).bind fun v' v hv => ?_
      rw [hv]
      exact .ok rfl

/-- An orderly member is read just if its key may stand there and its content has the form that is
asked of it. -/
theorem exists_partOf_iff (hfits : d.fitsNodeRole kind (kind.role? key))
    (hcontent : d.isOrderly = true → ((∃ v, ofExchange d = .ok v) ↔
      ∀ inner, Data.StandsIn inner d → Data.IsNode (.object inner))) :
    (∃ part?, partOf kind key d = .ok part?) ↔
      key ∈ kind.keys ∧ (key = "pos" → ∃ line col, d = .list [line, col]) ∧
        (key = "typ" → d = .null ∨ ∃ t, Ty.ofData d = .ok t) ∧
        (key ∉ ["kind", "pos", "typ"] →
          ∀ inner, Data.StandsIn inner d → Data.IsNode (.object inner)) := by
  unfold partOf
  cases hrole : kind.role? key with
  | none =>
    have hkey : key ∉ kind.keys := by
      rw [← Kind.isSome_role?, hrole]
      simp
    constructor
    · rintro ⟨_, ⟨⟩⟩
    · exact fun h => absurd h.1 hkey
  | some role =>
    have hkey : key ∈ kind.keys := Kind.isSome_role?.1 (by rw [hrole]; rfl)
    rw [hrole] at hfits
    obtain rfl := Kind.key_of_role? hrole
    cases role with
    | kind =>
      replace hkey : "kind" ∈ kind.keys := hkey
      simp [Role.key, hkey]
    | pos =>
      replace hkey : "pos" ∈ kind.keys := hkey
      rw [Fault.exists_bind_pure_iff, Pos.exists_ofData_iff hfits]
      simp [Role.key, hkey]
    | type =>
      replace hkey : "typ" ∈ kind.keys := hkey
      rw [Fault.exists_bind_pure_iff, Ty.exists_ofData?_iff]
      simp [Role.key, hkey]
    | source =>
      replace hkey : "source" ∈ kind.keys := hkey
      rw [Fault.exists_bind_pure_iff, hcontent hfits]
      simp [Role.key, hkey]
    | field f =>
      replace hkey : f.key ∈ kind.keys := hkey
      have hother : f.key ≠ "kind" ∧ f.key ≠ "pos" ∧ f.key ≠ "typ" := by
        cases f <;> decide
      rw [Fault.exists_bind_pure_iff, hcontent hfits.1]
      simp [Role.key, hkey, hother]

end Value

end

/-! ### Reading nodes -/

section

variable {kind : Kind} {ms ls : List (String × Data)}

/-- The parts of an orderly node make one, or some are missing. -/
theorem Node.concur_ofParts_of_partsOf {parts : List Part}
    (horderly : Data.isOrderlyNode kind ms = true) (h : Value.partsOf kind ms = .ok parts) :
    (Node.missing kind parts = [] → ∃ n, Node.ofParts kind parts = .ok n) ∧
      Concur Eq (Node.ofParts kind parts) (Node.ofParts kind parts) := by
  have htext : kind = .stringLiteral → ∀ v, .field .text v ∈ parts → ∃ s, v = .text s := by
    intro hk v hv
    obtain ⟨⟨key, d⟩, hm, hpart⟩ := Value.exists_of_mem_partsOf h hv
    have hfits := Data.fitsNodeRole_of_mem horderly hm
    have hrole : kind.role? key = some (.field .text) := Value.role?_of_partOf hpart
    rw [hrole] at hfits
    obtain ⟨s, rfl⟩ := hfits.2 rfl hk
    unfold Value.partOf at hpart
    rw [hrole, Value.ofExchange] at hpart
    cases hpart
    exact ⟨s, rfl⟩
  have htype : ∀ t, .type (some t) ∈ parts → t.Spelled := by
    intro t ht
    obtain ⟨⟨key, d⟩, hm, hpart⟩ := Value.exists_of_mem_partsOf h ht
    have hfits := Data.fitsNodeRole_of_mem horderly hm
    have hrole : kind.role? key = some .type := Value.role?_of_partOf hpart
    rw [hrole] at hfits
    unfold Value.partOf at hpart
    rw [hrole] at hpart
    obtain ⟨t?, hread, hpart⟩ := Fault.exists_of_bind hpart
    obtain rfl : t? = some t := by
      cases hpart
      rfl
    exact (Ty.spelled_of_ofData d).1 hfits t (Ty.ofData_of_ofData? hread)
  exact ⟨exists_ofParts htext htype, concur_ofParts_self htext htype⟩

/-- A kind that was read is the one that the object names. -/
theorem Kind.get?_of_ofMembers (h : Kind.ofMembers ms = .ok kind) :
    Data.get? ms "kind" = some (.text kind.name) := by
  unfold Kind.ofMembers at h
  split at h
  · rename_i s hs
    split at h
    · rename_i k hk
      obtain rfl := Except.ok.inj h
      unfold Kind.ofName? at hk
      rw [hs, beq_iff_eq.1 (List.find?_some (p := fun k : Kind => k.name == s) hk)]
    · cases h
  · cases h

/-- A kind that the object names is read. -/
theorem Kind.ofMembers_of_get? (h : Data.get? ms "kind" = some (.text kind.name)) :
    Kind.ofMembers ms = .ok kind := by
  unfold Kind.ofMembers
  rw [h]
  simp only [Kind.ofName?_name]

/-- The kind that an object names does not depend on the order of its members. -/
theorem Kind.concur_ofMembers
    (hrel : ∀ key, Option.Rel Data.Reordered (Data.get? ms key) (Data.get? ls key)) :
    Concur (fun k' k => k' = k ∧ Kind.ofMembers ms = .ok k) (Kind.ofMembers ls)
      (Kind.ofMembers ms) := by
  have hkey := hrel "kind"
  unfold Kind.ofMembers
  generalize Data.get? ms "kind" = d? at hkey
  generalize Data.get? ls "kind" = e? at hkey
  cases hkey with
  | none => exact Concur.malformed _ _
  | @some d e h =>
    cases h with
    | refl =>
      cases d with
      | text s =>
        dsimp only
        split
        · exact .ok ⟨rfl, rfl⟩
        · exact Concur.malformed _ _
      | _ => exact Concur.malformed _ _
    | list => exact Concur.malformed _ _
    | object => exact Concur.malformed _ _

namespace Value

/-- The parts of an orderly node do not depend on the order of its members, as far as a node is made
of them. -/
theorem concur_partsOf (hms : (ms.map Prod.fst).Nodup) (hls : (ls.map Prod.fst).Nodup)
    (hrel : ∀ key, Option.Rel (fun d e => Concur Eq (partOf kind key e) (partOf kind key d))
      (Data.get? ms key) (Data.get? ls key)) :
    Concur (fun parts' parts => Node.ofParts kind parts' = Node.ofParts kind parts ∧
      Value.partsOf kind ms = .ok parts) (partsOf kind ls) (partsOf kind ms) := by
  -- each member of one object has its like in the other one
  have hleft : ∀ m ∈ ms, ∃ e, (m.1, e) ∈ ls ∧
      Concur Eq (partOf kind m.1 e) (partOf kind m.1 m.2) := by
    intro m hm
    obtain ⟨e, he, h⟩ := Data.exists_of_rel_get? (hrel m.1) (Data.get?_of_mem hms hm)
    exact ⟨e, Data.mem_of_get? he, h⟩
  have hright : ∀ n ∈ ls, ∃ d, (n.1, d) ∈ ms ∧
      Concur Eq (partOf kind n.1 n.2) (partOf kind n.1 d) := by
    intro n hn
    obtain ⟨d, hd, h⟩ := Data.exists_of_rel_get?' (hrel n.1) (Data.get?_of_mem hls hn)
    exact ⟨d, Data.mem_of_get? hd, h⟩
  refine Concur.of_iff ?_ ?_ ?_ ?_
  · refine concur_partsOf_self fun n hn => ?_
    obtain ⟨d, -, h⟩ := hright n hn
    exact h.self'
  · refine concur_partsOf_self fun m hm => ?_
    obtain ⟨e, -, h⟩ := hleft m hm
    exact h.self
  · rw [exists_partsOf_iff, exists_partsOf_iff]
    constructor
    · intro hall m hm
      obtain ⟨e, he, h⟩ := hleft m hm
      exact h.exists_ok_iff.1 (hall _ he)
    · intro hall n hn
      obtain ⟨d, hd, h⟩ := hright n hn
      exact h.exists_ok_iff.2 (hall _ hd)
  · intro parts' parts h' h
    refine ⟨Node.ofParts_congr ?_ ?_ ?_ ?_, h⟩
    · exact findSome?_partsOf_eq Part.looks_pos (Kind.eq_of_role? rfl) hrel h' h
    · exact findSome?_partsOf_eq Part.looks_source (Kind.eq_of_role? rfl) hrel h' h
    · exact congrArg Option.join
        (findSome?_partsOf_eq Part.looks_type Kind.eq_of_role?_type hrel h' h)
    · intro slot hslot
      exact findSome?_partsOf_eq (Part.looks_field slot.field) (Kind.eq_of_role?_field hslot)
        hrel h' h

/-- Items that differ in order only inside are read alike, one by one. -/
theorem concur_itemsOf {ds es : List Data} (h : List.Forall₂ Data.Reordered ds es)
    (hds : ∀ d ∈ ds, ∀ e, d.Reordered e → Concur Eq (ofExchange e) (ofExchange d)) :
    Concur Eq (itemsOf es) (itemsOf ds) := by
  induction h with
  | nil =>
    rw [itemsOf]
    exact .ok rfl
  | cons hde _ ih =>
    rw [List.forall_mem_cons] at hds
    rw [itemsOf, itemsOf]
    refine (hds.1 _ hde).bind fun v' v hv => ?_
    refine (ih hds.2).bind fun vs' vs hvs => ?_
    rw [hv, hvs]
    exact .ok rfl

/-- Orderly data that differ in the order of members are read as the same content of a field. -/
theorem concur_ofExchange (d : Data) : d.hasDistinctNames = true → d.isOrderly = true →
    ∀ e, d.Reordered e → Concur Eq (ofExchange e) (ofExchange d) := by
  induction d using Data.induct with
  | object ms ih =>
    intro hnames horderly e h
    rw [Data.hasDistinctNames_object] at hnames
    obtain ⟨ls, rfl, hls, hrel⟩ := h.of_object hnames.1
    rw [ofExchange, ofExchange]
    refine (Kind.concur_ofMembers hrel).bind ?_
    rintro _ kind ⟨rfl, hkind⟩
    rw [Data.isOrderly, hkind] at horderly
    refine (concur_partsOf hnames.1 hls fun key => ?_).bind ?_
    · have hkey := hrel key
      cases hd : Data.get? ms key with
      | none =>
        rw [hd] at hkey
        generalize Data.get? ls key = e? at hkey
        cases hkey
        exact .none
      | some d =>
        have hmem := Data.mem_of_get? hd
        obtain ⟨e, he, hde⟩ := Data.exists_of_rel_get? hkey hd
        rw [he]
        have hfits := Data.fitsNodeRole_of_mem horderly hmem
        have hd' := hnames.2 _ hmem
        exact .some (concur_partOf hfits hd' hde fun h => ih _ hmem hd' h e hde)
    · rintro parts' parts ⟨hsame, hparts⟩
      rw [hsame]
      refine (Node.concur_ofParts_of_partsOf horderly hparts).2.bind fun n' n hn => ?_
      rw [hn]
      exact .ok rfl
  | list ds ih =>
    intro hnames horderly e h
    rw [Data.hasDistinctNames_list] at hnames
    obtain ⟨es, rfl, hes⟩ := h.of_list
    rw [Data.isOrderly, Data.areOrderly_iff] at horderly
    rw [ofExchange, ofExchange]
    refine (concur_itemsOf hes fun d hmem e hde => ?_).bind fun vs' vs hvs => ?_
    · exact ih d hmem (hnames d hmem) (horderly d hmem) e hde
    · rw [hvs]
      exact .ok rfl
  | _ =>
    rintro - - e ⟨⟩
    rw [ofExchange]
    exact .ok rfl

/-- Items can be read exactly if each of them can. -/
theorem exists_itemsOf_iff {ds : List Data} :
    (∃ vs, itemsOf ds = .ok vs) ↔ ∀ d ∈ ds, ∃ v, ofExchange d = .ok v := by
  induction ds with
  | nil =>
    rw [itemsOf]
    exact ⟨fun _ _ h => absurd h List.not_mem_nil, fun _ => ⟨[], rfl⟩⟩
  | cons d ds ih =>
    rw [itemsOf, List.forall_mem_cons, ← ih]
    constructor
    · rintro ⟨vs, h⟩
      obtain ⟨v, hv, h⟩ := Fault.exists_of_bind h
      obtain ⟨rest, hrest, -⟩ := Fault.exists_of_bind h
      exact ⟨⟨v, hv⟩, rest, hrest⟩
    · rintro ⟨⟨v, hv⟩, rest, hrest⟩
      rw [hv, hrest]
      exact ⟨_, rfl⟩

/-- An orderly object is read just if it has the form of a node, if what its members hold is. -/
theorem exists_ofExchange_object_iff
    (horderly : ∀ kind, Kind.ofMembers ms = .ok kind → Data.isOrderlyNode kind ms = true)
    (hcontent : ∀ m ∈ ms, m.2.isOrderly = true → ((∃ v, ofExchange m.2 = .ok v) ↔
      ∀ inner, Data.StandsIn inner m.2 → Data.IsNode (.object inner))) :
    (∃ v, ofExchange (.object ms) = .ok v) ↔ Data.IsNode (.object ms) := by
  rw [ofExchange]
  constructor
  · rintro ⟨v, h⟩
    obtain ⟨kind, hkind, h⟩ := Fault.exists_of_bind h
    obtain ⟨parts, hparts, h⟩ := Fault.exists_of_bind h
    obtain ⟨n, hn, -⟩ := Fault.exists_of_bind h
    have hmember : ∀ m ∈ ms, _ := fun m hm =>
      (exists_partOf_iff (Data.fitsNodeRole_of_mem (horderly kind hkind) hm) (hcontent m hm)).1
        (exists_partsOf_iff.1 ⟨parts, hparts⟩ m hm)
    refine .object (Kind.get?_of_ofMembers hkind) ?_ ?_ ?_ ?_ ?_
    · exact fun m hm => (hmember m hm).1
    · exact (Node.missing_eq_nil_iff hparts).1 (Node.ofParts_eq_ok.1 hn).1
    · exact fun d hd => (hmember _ hd).2.1 rfl
    · exact fun d hd => (hmember _ hd).2.2.1 rfl
    · exact fun m hm => (hmember m hm).2.2.2
  · intro h
    cases h with
    | @object kind _ hname hkeys hrequired hplace htype hnested =>
      have hkind : Kind.ofMembers ms = .ok kind := Kind.ofMembers_of_get? hname
      obtain ⟨parts, hparts⟩ : ∃ parts, partsOf kind ms = .ok parts := by
        refine exists_partsOf_iff.2 fun m hm => ?_
        refine (exists_partOf_iff (Data.fitsNodeRole_of_mem (horderly kind hkind) hm)
          (hcontent m hm)).2 ⟨hkeys m hm, ?_, ?_, hnested m hm⟩
        · rintro hkey
          exact hplace _ (hkey ▸ hm)
        · rintro hkey
          exact htype _ (hkey ▸ hm)
      have hmissing := (Node.missing_eq_nil_iff hparts).2 hrequired
      obtain ⟨n, hn⟩ :=
        (Node.concur_ofParts_of_partsOf (horderly kind hkind) hparts).1 hmissing
      rw [hkind]
      show ∃ v, (partsOf kind ms >>= fun _ => _) = Except.ok v
      rw [hparts]
      show ∃ v, (Node.ofParts kind parts >>= fun _ => _) = Except.ok v
      rw [hn]
      exact ⟨_, rfl⟩

/-- An orderly datum is read in a field just if all objects that stand in it have the form of a
node. -/
theorem exists_ofExchange_iff (d : Data) : d.isOrderly = true → ((∃ v, ofExchange d = .ok v) ↔
    ∀ inner, Data.StandsIn inner d → Data.IsNode (.object inner)) := by
  induction d using Data.induct with
  | object ms ih =>
    intro horderly
    rw [exists_ofExchange_object_iff ?_ ih]
    · constructor
      · rintro h inner ⟨⟩
        exact h
      · exact fun h => h ms .itself
    · intro kind hkind
      rwa [Data.isOrderly, hkind] at horderly
  | list ds ih =>
    intro horderly
    rw [Data.isOrderly, Data.areOrderly_iff] at horderly
    have hitems : (∃ v, ofExchange (.list ds) = .ok v) ↔ ∃ vs, itemsOf ds = .ok vs := by
      rw [ofExchange]
      exact Fault.exists_bind_pure_iff
    rw [hitems, exists_itemsOf_iff]
    constructor
    · intro h inner hinner
      cases hinner with
      | item hmem hinner => exact (ih _ hmem (horderly _ hmem)).1 (h _ hmem) inner hinner
    · intro h d hmem
      exact (ih d hmem (horderly d hmem)).2 fun inner hinner => h inner (.item hmem hinner)
  | _ =>
    intro _
    rw [ofExchange]
    refine ⟨fun _ inner h => ?_, fun _ => ⟨_, rfl⟩⟩
    cases h

end Value

end

/-! ### Trees -/

/-- Of the data with distinct names in which places have whole numbers, the names in types are
texts, the aliases texts or null, the members of unions lists and the texts of string literals
texts, just those are read as a node that have the form of one; any other is found malformed. Data
that differ in the order of members are read as the same tree, or both are malformed. -/
theorem Node.ofData_grammar {d : Data} (hnames : d.hasDistinctNames = true)
    (hd : d.isOrderly = true) :
    ((∃ v, Node.ofData d = .ok v) ↔ d.IsNode) ∧
      (¬d.IsNode → ∃ cause, Node.ofData d = .error (.malformed cause)) ∧
      ∀ e, d.Reordered e → Concur Eq (Node.ofData e) (Node.ofData d) := by
  have hconcur : ∀ e, d.Reordered e → Concur Eq (Node.ofData e) (Node.ofData d) := by
    intro e h
    cases d with
    | object ms =>
      obtain ⟨ls, rfl, -⟩ := h.of_object (Data.hasDistinctNames_object.1 hnames).1
      exact Value.concur_ofExchange _ hnames hd _ h
    | list ds =>
      obtain ⟨es, rfl, -⟩ := h.of_list
      exact Concur.malformed _ _
    | _ =>
      cases h
      exact Concur.malformed _ _
  have hiff : (∃ v, Node.ofData d = .ok v) ↔ d.IsNode := by
    cases d with
    | object ms =>
      refine (Value.exists_ofExchange_iff _ hd).trans ?_
      constructor
      · exact fun h => h ms .itself
      · rintro h inner ⟨⟩
        exact h
    | _ =>
      constructor
      · rintro ⟨_, ⟨⟩⟩
      · rintro ⟨⟩
  refine ⟨hiff, fun h => ?_, hconcur⟩
  exact (hconcur d (.refl d)).exists_malformed (mt hiff.1 h)

/-- A name with a type, the members of both in an unusual order. The type has a member that types do
not have. -/
def unusualRates : Data :=
  .object [("typ", .object [("note", .int 1), ("name", .text "Rates"), ("kind", .text "named")]),
    ("text", .text "rates"), ("kind", .text "Identifier")]

/-- The name with its members in the usual order, but not those of its type. -/
def usualRates : Data :=
  .object [("kind", .text "Identifier"), ("text", .text "rates"),
    ("typ", .object [("note", .int 1), ("name", .text "Rates"), ("kind", .text "named")])]

/-- The two tables of rates differ in the order of their members. -/
theorem reordered_rates : unusualRates.Reordered usualRates :=
  .object rfl (Data.Reordered.refl_items _) (by decide)

/-- A call with one argument, which stands in a list of its own. -/
def conversion (callee argument : Data) : Data :=
  .object [("arguments", .list [.list [argument]]), ("pos", .list [.int 4, .int 2]),
    ("kind", .text "CallExpression"), ("expression", callee)]

/-- Two names in another order at different depths, and a call without a callee. -/
theorem Node.ofData_grammar_conversion :
    (conversion usualRates unusualRates).IsNode ∧
      Concur Eq (Node.ofData (conversion unusualRates usualRates))
        (Node.ofData (conversion unusualRates unusualRates)) ∧
      ∃ cause, Node.ofData (.object [("kind", .text "CallExpression")]) =
        .error (.malformed cause) := by
  refine ⟨?_, ?_, ?_⟩
  · exact (Node.ofData_grammar rfl rfl).1.1 ⟨_, rfl⟩
  · refine (Node.ofData_grammar rfl rfl).2.2 _ ?_
    refine @Data.Reordered.object _ [("arguments", .list [.list [usualRates]]), _, _, _] _ rfl
      (.cons ?_ (Data.Reordered.refl_items _)) (List.Perm.refl _)
    exact .list (.cons (.list (.cons reordered_rates .nil)) .nil)
  · obtain ⟨hiff, hmalformed, -⟩ :=
      Node.ofData_grammar (d := .object [("kind", .text "CallExpression")]) rfl rfl
    refine hmalformed fun h => ?_
    obtain ⟨v, hv⟩ := hiff.2 h
    cases hv

end CodeSample

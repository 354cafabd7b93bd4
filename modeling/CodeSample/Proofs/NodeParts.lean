import CodeSample.Proofs.NodeCodec
import CodeSample.Proofs.TypeReading

/-!
# The parts of a node, by their keys

The members of a node's object are read one after the other, and a node is made of what is found
among the parts. What is found for a role is what was read at the key of that role, wherever its
member stands.

* `Kind.keys` are the keys that may stand in the object of a node, and `Role.key` is the key of a
  role;
* `Value.partOf` reads one member, and `exists_partsOf_iff`: all are read if each of them is;
* `findSome?_partsOf`: what is found among the parts is what was read at the key;
* `Node.missing_eq_nil_iff`, `Node.exists_ofParts`: when a node can be made of its parts, and
  `Node.ofParts_congr`: that it is made of what is found among them.
-/

namespace CodeSample

/-! ### Keys and roles -/

/-- The keys that may stand in the object of a node of a kind. -/
def Kind.keys (k : Kind) : List String :=
  ["kind", "pos", "source"] ++ (if k.typed then ["typ"] else []) ++ k.slots.map (·.field.key)

/-- The key of what has a role. -/
def Role.key : Role → String
  | kind => "kind"
  | pos => "pos"
  | source => "source"
  | type => "typ"
  | field f => f.key

namespace Kind

variable {k : Kind} {key : String} {role : Role}

/-- A key has no other role than the one that it is the key of. -/
theorem key_of_role? (h : k.role? key = some role) : role.key = key := by
  unfold role? at h
  split at h
  · obtain rfl := Option.some.inj h
    rfl
  · obtain rfl := Option.some.inj h
    rfl
  · obtain rfl := Option.some.inj h
    rfl
  · split at h
    · obtain rfl := Option.some.inj h
      rfl
    · cases h
  · obtain ⟨slot, hslot, rfl⟩ := Option.map_eq_some_iff.1 h
    unfold slot? at hslot
    exact beq_iff_eq.1 (List.find?_some (p := fun slot : Slot => slot.field.key == key) hslot)

/-- The key of a role has that role only. -/
theorem eq_of_role? (h : k.role? role.key = some role) :
    ∀ r, k.role? role.key = some r → r = role := by
  intro r hr
  exact Option.some.inj (hr.symm.trans h)

/-- The key of a field has the role of the field only. -/
theorem eq_of_role?_field {slot : Slot} (hslot : slot ∈ k.slots) :
    ∀ r, k.role? (Role.field slot.field).key = some r → r = .field slot.field :=
  eq_of_role? (role?_key k slot hslot)

/-- The key of a type has the role of the type only. -/
theorem eq_of_role?_type : ∀ r, k.role? Role.type.key = some r → r = .type := by
  intro r hr
  replace hr : (if k.typed then some Role.type else none) = some r := hr
  split at hr
  · exact (Option.some.inj hr).symm
  · cases hr

/-- What has the role of a field is the content of a slot. -/
theorem exists_slot_of_role? {f : Field} (h : k.role? key = some (.field f)) :
    ∃ slot ∈ k.slots, slot.field = f := by
  unfold role? at h
  split at h
  · cases h
  · cases h
  · cases h
  · split at h <;> cases h
  · obtain ⟨slot, hslot, h⟩ := Option.map_eq_some_iff.1 h
    exact ⟨slot, List.mem_of_find?_eq_some hslot, Role.field.inj h⟩

/-- A key has a role just if it may stand in the object of a node of the kind. -/
theorem isSome_role? : (k.role? key).isSome = true ↔ key ∈ k.keys := by
  unfold keys
  rw [List.mem_append, List.mem_append]
  constructor
  · intro h
    obtain ⟨role, hrole⟩ := Option.isSome_iff_exists.1 h
    obtain rfl := key_of_role? hrole
    cases role with
    | kind | pos | source => exact Or.inl (Or.inl (by simp [Role.key]))
    | type =>
      rw [if_pos (typed_of_role? hrole)]
      exact Or.inl (Or.inr (by simp [Role.key]))
    | field f =>
      obtain ⟨slot, hslot, rfl⟩ := exists_slot_of_role? hrole
      exact Or.inr (List.mem_map.2 ⟨slot, hslot, rfl⟩)
  · rintro ((h | h) | h)
    · simp only [List.mem_cons, List.not_mem_nil, or_false] at h
      rcases h with rfl | rfl | rfl <;> rfl
    · split at h
      · rename_i htyped
        obtain rfl := List.mem_singleton.1 h
        show (if k.typed then some Role.type else none).isSome = true
        rw [if_pos htyped]
        rfl
      · cases h
    · obtain ⟨slot, hslot, rfl⟩ := List.mem_map.1 h
      rw [role?_key k slot hslot]
      rfl

end Kind

/-! ### The parts of a node -/

namespace Part

/-- What a part is for. -/
def role : Part → Role
  | pos _ => .pos
  | source _ => .source
  | type _ => .type
  | field f _ => .field f

/-- Something is looked for in the parts with a role, and found in each of them. -/
structure Looks {α : Type} (look : Part → Option α) (role : Role) : Prop where
  ne_kind : role ≠ .kind
  other : ∀ p, p.role ≠ role → look p = none
  same : ∀ p, p.role = role → (look p).isSome = true

/-- Places are looked for in the parts with the role of a place. -/
theorem looks_pos : Looks (fun | pos p => some p | _ => none) .pos where
  ne_kind := by simp
  other p hp := by
    cases p with
    | pos => exact absurd rfl hp
    | _ => rfl
  same p hp := by
    cases p with
    | pos => rfl
    | _ => cases hp

/-- Sources are looked for in the parts with the role of a source. -/
theorem looks_source : Looks (fun | source v => some v | _ => none) .source where
  ne_kind := by simp
  other p hp := by
    cases p with
    | source => exact absurd rfl hp
    | _ => rfl
  same p hp := by
    cases p with
    | source => rfl
    | _ => cases hp

/-- Types are looked for in the parts with the role of a type. -/
theorem looks_type : Looks (fun | type t? => some t? | _ => none) .type where
  ne_kind := by simp
  other p hp := by
    cases p with
    | type => exact absurd rfl hp
    | _ => rfl
  same p hp := by
    cases p with
    | type => rfl
    | _ => cases hp

/-- The content of a field is looked for in the parts with the role of the field. -/
theorem looks_field (f : Field) :
    Looks (fun | field g v => if g = f then some v else none | _ => none) (.field f) where
  ne_kind := by simp
  other p hp := by
    cases p with
    | field g v => exact if_neg fun h => hp (congrArg Role.field h)
    | _ => rfl
  same p hp := by
    cases p with
    | field g v =>
      obtain rfl := Role.field.inj hp
      simp
    | _ => cases hp

end Part

namespace Value

variable {kind : Kind} {ms ls : List (String × Data)} {key : String} {d : Data}

/-- The part that a member of a node's object is read as; the kind is none. -/
def partOf (kind : Kind) (key : String) (d : Data) : Except Fault (Option Part) :=
  match kind.role? key with
  | none => .error (.malformed (.nodeField kind key))
  | some .kind => .ok none
  | some .pos => do return some (.pos (← Pos.ofData d))
  | some .type => do return some (.type (← Ty.ofData? d))
  | some .source => do return some (.source (← ofExchange d))
  | some (.field f) => do return some (.field f (← ofExchange d))

/-- Members are read one after the other. -/
theorem partsOf_cons (kind : Kind) (key : String) (d : Data) (ms : List (String × Data)) :
    partsOf kind ((key, d) :: ms) = do
      let part? ← partOf kind key d
      let parts ← partsOf kind ms
      return part?.toList ++ parts := by
  rw [partsOf]
  unfold partOf
  cases kind.role? key with
  | none => rfl
  | some role =>
    cases role with
    | kind =>
      show partsOf kind ms = partsOf kind ms >>= fun parts => .ok parts
      cases partsOf kind ms <;> rfl
    | pos => simp only [bind_assoc, pure_bind]; rfl
    | source => simp only [bind_assoc, pure_bind]; rfl
    | type => simp only [bind_assoc, pure_bind]; rfl
    | field f => simp only [bind_assoc, pure_bind]; rfl

/-- A part has the role of the key that it was read at. -/
theorem role?_of_partOf {p : Part} (h : partOf kind key d = .ok (some p)) :
    kind.role? key = some p.role := by
  unfold partOf at h
  split at h
  · cases h
  · cases h
  all_goals
    rename_i hrole
    obtain ⟨content, -, h⟩ := Fault.exists_of_bind h
    obtain rfl := Option.some.inj (Except.ok.inj h)
    exact hrole

/-- Every member that can be read is a part, but for the kind. -/
theorem exists_of_partOf {part? : Option Part} (h : partOf kind key d = .ok part?)
    (hkind : kind.role? key ≠ some .kind) : ∃ p, part? = some p := by
  unfold partOf at h
  split at h
  · cases h
  · rename_i hrole
    exact absurd hrole hkind
  all_goals
    obtain ⟨content, -, h⟩ := Fault.exists_of_bind h
    exact ⟨_, (Except.ok.inj h).symm⟩

/-- All members are read if each of them is. -/
theorem exists_partsOf_iff : (∃ parts, partsOf kind ms = .ok parts) ↔
    ∀ m ∈ ms, ∃ part?, partOf kind m.1 m.2 = .ok part? := by
  induction ms with
  | nil =>
    rw [partsOf]
    exact ⟨fun _ _ h => absurd h List.not_mem_nil, fun _ => ⟨[], rfl⟩⟩
  | cons m ms ih =>
    obtain ⟨key, d⟩ := m
    rw [partsOf_cons, List.forall_mem_cons, ← ih]
    constructor
    · rintro ⟨parts, h⟩
      obtain ⟨part?, hpart, h⟩ := Fault.exists_of_bind h
      obtain ⟨rest, hrest, -⟩ := Fault.exists_of_bind h
      exact ⟨⟨part?, hpart⟩, rest, hrest⟩
    · rintro ⟨⟨part?, hpart⟩, rest, hrest⟩
      rw [hpart, hrest]
      exact ⟨_, rfl⟩

/-- Reading all members finds at most that one of them describes nothing. -/
theorem concur_partsOf_self
    (h : ∀ m ∈ ms, Concur Eq (partOf kind m.1 m.2) (partOf kind m.1 m.2)) :
    Concur Eq (partsOf kind ms) (partsOf kind ms) := by
  induction ms with
  | nil =>
    rw [partsOf]
    exact .ok rfl
  | cons m ms ih =>
    obtain ⟨key, d⟩ := m
    rw [List.forall_mem_cons] at h
    rw [partsOf_cons]
    refine h.1.bind fun part?' part? hpart => ?_
    refine (ih h.2).bind fun parts' parts hparts => ?_
    rw [hpart, hparts]
    exact .ok rfl

section

variable {α : Type} {look : Part → Option α} {role : Role} (hlook : Part.Looks look role)
  (hrole : ∀ r, kind.role? role.key = some r → r = role)
include hlook hrole

/-- What is looked for among the parts is the part that is read at the key of its role. -/
theorem findSome?_partsOf {parts : List Part} (h : partsOf kind ms = .ok parts) :
    parts.findSome? look = (Data.get? ms role.key).bind fun d =>
      (partOf kind role.key d).toOption.join.bind look := by
  induction ms generalizing parts with
  | nil =>
    rw [partsOf] at h
    obtain rfl := Except.ok.inj h
    rfl
  | cons m ms ih =>
    obtain ⟨key, d⟩ := m
    rw [partsOf_cons] at h
    obtain ⟨part?, hpart, h⟩ := Fault.exists_of_bind h
    obtain ⟨rest, hrest, h⟩ := Fault.exists_of_bind h
    obtain rfl := Except.ok.inj h
    rw [List.findSome?_append, Data.get?_cons]
    by_cases hkey : role.key = key
    · subst hkey
      rw [if_pos rfl, Option.bind_some, hpart]
      obtain ⟨p, rfl⟩ := exists_of_partOf hpart fun h => hlook.ne_kind (hrole _ h).symm
      obtain ⟨a, ha⟩ := Option.isSome_iff_exists.1 (hlook.same p (hrole _ (role?_of_partOf hpart)))
      show (List.findSome? look [p]).or _ = look p
      rw [List.findSome?_singleton, ha]
      rfl
    · rw [if_neg hkey, ← ih hrest]
      cases part? with
      | none => rfl
      | some p =>
        have hne : p.role ≠ role := by
          rintro rfl
          exact hkey (Kind.key_of_role? (role?_of_partOf hpart))
        show (List.findSome? look [p]).or _ = _
        rw [List.findSome?_singleton, hlook.other p hne]
        rfl

/-- What is looked for among the parts does not depend on the order of the members. -/
theorem findSome?_partsOf_eq
    (hrel : ∀ key, Option.Rel (fun d e => Concur Eq (partOf kind key e) (partOf kind key d))
      (Data.get? ms key) (Data.get? ls key)) {parts' parts : List Part}
    (h' : partsOf kind ls = .ok parts') (h : partsOf kind ms = .ok parts) :
    parts'.findSome? look = parts.findSome? look := by
  rw [findSome?_partsOf hlook hrole h', findSome?_partsOf hlook hrole h]
  have hkey := hrel role.key
  generalize Data.get? ms role.key = d? at hkey
  generalize Data.get? ls role.key = e? at hkey
  cases hkey with
  | none => rfl
  | @some d e hde =>
    rw [Option.bind_some, Option.bind_some]
    generalize partOf kind role.key d = x at hde
    generalize partOf kind role.key e = x' at hde
    cases hde with
    | ok h => rw [h]
    | error => rfl

/-- Something is found among the parts just if there is a member with the key. -/
theorem isSome_findSome?_partsOf {parts : List Part} (h : partsOf kind ms = .ok parts) :
    (parts.findSome? look).isSome = true ↔ role.key ∈ ms.map Prod.fst := by
  rw [findSome?_partsOf hlook hrole h, ← Data.isSome_get?]
  cases hd : Data.get? ms role.key with
  | none => exact Iff.rfl
  | some d =>
    obtain ⟨part?, hpart⟩ := exists_partsOf_iff.1 ⟨parts, h⟩ _ (Data.mem_of_get? hd)
    dsimp only at hpart
    obtain ⟨p, rfl⟩ := exists_of_partOf hpart fun h => hlook.ne_kind (hrole _ h).symm
    rw [Option.bind_some, hpart]
    exact ⟨fun _ => rfl, fun _ => hlook.same p (hrole _ (role?_of_partOf hpart))⟩

end

/-- A part was read from one of the members. -/
theorem exists_of_mem_partsOf {parts : List Part} (h : partsOf kind ms = .ok parts) {p : Part}
    (hp : p ∈ parts) : ∃ m ∈ ms, partOf kind m.1 m.2 = .ok (some p) := by
  induction ms generalizing parts with
  | nil =>
    rw [partsOf] at h
    obtain rfl := Except.ok.inj h
    cases hp
  | cons m ms ih =>
    obtain ⟨key, d⟩ := m
    rw [partsOf_cons] at h
    obtain ⟨part?, hpart, h⟩ := Fault.exists_of_bind h
    obtain ⟨rest, hrest, h⟩ := Fault.exists_of_bind h
    obtain rfl := Except.ok.inj h
    rcases List.mem_append.1 hp with hp | hp
    · obtain rfl := Option.mem_toList.1 hp
      exact ⟨_, List.mem_cons_self, hpart⟩
    · obtain ⟨m, hm, hread⟩ := ih hrest hp
      exact ⟨m, List.mem_cons_of_mem _ hm, hread⟩

end Value

/-! ### Making a node of its parts -/

section

variable {kind : Kind} {ms ls : List (String × Data)} {parts parts' : List Part}

namespace Node

/-- Nothing is missing just if each field that has to be there has a member. -/
theorem missing_eq_nil_iff (h : Value.partsOf kind ms = .ok parts) :
    missing kind parts = [] ↔
      ∀ slot ∈ kind.slots, slot.default? = none → slot.field.key ∈ ms.map Prod.fst := by
  unfold missing
  rw [List.map_eq_nil_iff, List.filter_eq_nil_iff]
  refine forall₂_congr fun slot hslot => ?_
  have hfield : (Part.field? parts slot.field).isSome = true ↔ slot.field.key ∈ ms.map Prod.fst :=
    Value.isSome_findSome?_partsOf (Part.looks_field slot.field) (Kind.eq_of_role?_field hslot) h
  rw [← hfield]
  unfold Slot.fill?
  cases slot.default? <;> cases Part.field? parts slot.field <;> simp

/-- A node can be made when nothing is missing, if the text of a string literal is a text and the
type has texts as names. -/
theorem exists_ofParts
    (htext : kind = .stringLiteral → ∀ v, .field .text v ∈ parts → ∃ s, v = .text s)
    (htype : ∀ t, .type (some t) ∈ parts → t.Spelled) (h : missing kind parts = []) :
    ∃ n, ofParts kind parts = .ok n := by
  have hdefault : ∃ s, (assembled kind parts).defaultSource = .ok s := by
    unfold defaultSource
    split
    · exact ⟨_, rfl⟩
    · exact ⟨_, rfl⟩
    · rename_i hk
      obtain ⟨s, hs⟩ := htext hk _ (text_part_mem h (by rw [show kind = _ from hk]; rfl))
      rw [hs]
      exact ⟨_, rfl⟩
    · split
      · exact ⟨_, rfl⟩
      · rename_i t ht
        rw [Ty.describe_of_spelled t (htype t (Part.mem_of_type? ht))]
        exact ⟨_, rfl⟩
    · exact ⟨_, rfl⟩
  have hsource : ∃ n, (assembled kind parts).withSource = .ok n := by
    obtain ⟨s, hs⟩ := hdefault
    unfold withSource
    split
    · exact ⟨_, rfl⟩
    · rw [hs]
      exact ⟨_, rfl⟩
  obtain ⟨n, hn⟩ := hsource
  exact ⟨n, ofParts_eq_ok.2 ⟨h, hn⟩⟩

/-- A node is made of its parts, or found to miss some. -/
theorem concur_ofParts_self
    (htext : kind = .stringLiteral → ∀ v, .field .text v ∈ parts → ∃ s, v = .text s)
    (htype : ∀ t, .type (some t) ∈ parts → t.Spelled) :
    Concur Eq (ofParts kind parts) (ofParts kind parts) := by
  by_cases h : missing kind parts = []
  · obtain ⟨n, hn⟩ := exists_ofParts htext htype h
    rw [hn]
    exact .ok rfl
  · unfold ofParts
    split
    · rename_i hmissing
      exact absurd hmissing h
    · exact Concur.malformed _ _

/-- A node is made of what is found among its parts. -/
theorem ofParts_congr (hpos : Part.pos? parts' = Part.pos? parts)
    (hsource : Part.source? parts' = Part.source? parts)
    (htype : Part.type? parts' = Part.type? parts)
    (hfield : ∀ slot ∈ kind.slots, Part.field? parts' slot.field = Part.field? parts slot.field) :
    ofParts kind parts' = ofParts kind parts := by
  have hfill : ∀ slot ∈ kind.slots, slot.fill? parts' = slot.fill? parts := by
    intro slot hslot
    unfold Slot.fill?
    rw [hfield slot hslot]
  have hmissing : missing kind parts' = missing kind parts := by
    unfold missing
    rw [List.filter_congr fun slot hslot => by rw [hfill slot hslot]]
  have hfields : (kind.slots.map fun slot => (slot.fill? parts').getD .null) =
      kind.slots.map fun slot => (slot.fill? parts).getD .null :=
    List.map_congr_left fun slot hslot => by rw [hfill slot hslot]
  unfold ofParts
  rw [hmissing, hpos, hsource, htype, hfields]

end Node

end

end CodeSample

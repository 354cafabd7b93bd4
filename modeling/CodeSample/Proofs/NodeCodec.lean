import CodeSample.Proofs.ReadTrees
import CodeSample.Proofs.Rebuilt

/-!
# Trees in the exchanged form and back

A tree that was read from a legible datum can be written, and reading what was written gives the
rebuilt tree. Each member that is left out is one that reading puts back: a place that is not known,
a source that is empty, a type that is not there.

* `Node.headParts` and `Node.fieldParts` are the parts that are read back of a node, and
  `Node.ofParts_headParts` says that they make the rebuilt node;
* `exists_toData`: a tree that was read is written, and what is written is read as the rebuilt tree;
* `toData_rebuilt`: the rebuilt tree is written as the tree was.
-/

namespace CodeSample

/-! ### The members of a node -/

/-- The name under which a field is written is the one under which it is read. -/
theorem Kind.role?_key : ∀ (k : Kind), ∀ slot ∈ k.slots,
    k.role? slot.field.key = some (.field slot.field) := by
  intro k
  cases k <;> decide +kernel

/-- The kind that is written first is the one that is read. -/
theorem Kind.ofMembers_name (k : Kind) (ms : List (String × Data)) :
    ofMembers (("kind", .text k.name) :: ms) = .ok k := by
  have hget : Data.get? (("kind", .text k.name) :: ms) "kind" = some (.text k.name) := rfl
  unfold ofMembers
  simp only [hget, ofName?_name]

/-- No kind has a field twice. -/
theorem Kind.nodup_fields (k : Kind) : (k.slots.map Slot.field).Nodup := by
  cases k <;> decide

namespace Value

/-- The members of an object are read one after the other. -/
theorem partsOf_append {kind : Kind} {ms ns : List (String × Data)} {ps qs : List Part}
    (hms : partsOf kind ms = .ok ps) (hns : partsOf kind ns = .ok qs) :
    partsOf kind (ms ++ ns) = .ok (ps ++ qs) := by
  induction ms generalizing ps with
  | nil =>
    rw [partsOf] at hms
    obtain rfl := Except.ok.inj hms
    exact hns
  | cons m ms ih =>
    obtain ⟨key, d⟩ := m
    rw [List.cons_append]
    rw [partsOf] at hms ⊢
    cases hrole : kind.role? key with
    | none =>
      rw [hrole] at hms
      cases hms
    | some role =>
      rw [hrole] at hms
      cases role with
      | kind => exact ih hms
      | pos | source | type | field =>
        obtain ⟨x, hx, hms⟩ := Fault.exists_of_bind hms
        obtain ⟨rest, hrest, hms⟩ := Fault.exists_of_bind hms
        obtain rfl := Except.ok.inj hms
        show (_ >>= fun _ => _) = _
        rw [hx]
        show (partsOf kind (ms ++ ns) >>= fun _ => _) = _
        rw [ih hrest]
        rfl

end Value

namespace Node

variable {n : Node}

/-- The parts of a node that say where it stands, how it was written and what type it has. -/
def headParts (n : Node) : List Part :=
  (if n.pos.isKnown then [.pos n.pos] else []) ++
    ((if n.source.truthy then [.source n.source] else []) ++
      match n.type? with
      | some t => [.type (some t)]
      | none => [])

/-- The parts for the fields in slots. -/
def fieldParts (slots : List Slot) (vs : List Value) : List Part :=
  List.zipWith (fun slot v => .field slot.field v) slots vs

/-! ### Writing the members -/

/-- The members for the source of a node: one, or none where the source is empty. -/
def SourceMembers (n : Node) (ms : List (String × Data)) : Prop :=
  (n.source.truthy = true ∧ ∃ d, n.source.plain = .ok d ∧ ms = [("source", d)]) ∨
    n.source.truthy = false ∧ ms = []

/-- The members for the type of a node: one, or none where there is no type. -/
def TypeMembers (n : Node) (ms : List (String × Data)) : Prop :=
  (∃ t d, n.type? = some t ∧ t.toData = .ok d ∧ ms = [("typ", d)]) ∨ n.type? = none ∧ ms = []

/-- The head of a node is its members one after the other, each of them written or left out. -/
theorem headMembers_eq {ss ts : List (String × Data)} (hs : n.SourceMembers ss)
    (ht : n.TypeMembers ts) :
    Value.headMembers n.pos n.source n.type? =
      .ok ((if n.pos.isKnown then [("pos", n.pos.toData)] else []) ++ (ss ++ ts)) := by
  rw [← List.append_assoc]
  unfold Value.headMembers
  rcases hs with ⟨hs, d, hd, rfl⟩ | ⟨hs, rfl⟩ <;> rcases ht with ⟨t, e, ht, he, rfl⟩ | ⟨ht, rfl⟩ <;>
    rw [ht, hs]
  · rw [if_pos rfl, hd]
    show (t.toData >>= fun _ => _) = _
    rw [he]
    rfl
  · rw [if_pos rfl, hd]
    rfl
  · show (t.toData >>= fun _ => _) = _
    rw [he]
    rfl
  · rfl

/-- The source of a node that was made is written and read back. -/
theorem exists_sourceMembers (h : n.IsMade) :
    ∃ ms, n.SourceMembers ms ∧ Value.partsOf n.kind ms =
      .ok (if n.source.truthy then [.source n.source] else []) := by
  unfold SourceMembers
  cases htruthy : n.source.truthy with
  | false => exact ⟨[], Or.inr ⟨rfl, rfl⟩, rfl⟩
  | true =>
    rcases h.source with hs | ⟨s, hs⟩ <;> rw [hs] at htruthy ⊢
    · cases htruthy
    · exact ⟨_, Or.inl ⟨rfl, .text s, rfl, rfl⟩, rfl⟩

/-- The type of a node that was made is written and read back. -/
theorem exists_typeMembers (h : n.IsMade) :
    ∃ ms, n.TypeMembers ms ∧ Value.partsOf n.kind ms =
      .ok (match n.type? with
        | some t => [.type (some t)]
        | none => []) := by
  unfold TypeMembers
  cases ht : n.type? with
  | none => exact ⟨[], Or.inr ⟨rfl, rfl⟩, rfl⟩
  | some t =>
    obtain ⟨htyped, hread⟩ := h.type t ht
    obtain ⟨d, hd, hback⟩ := Ty.exists_toData t hread.whole
    refine ⟨_, Or.inl ⟨t, d, rfl, hd, rfl⟩, ?_⟩
    have hrole : n.kind.role? "typ" = some .type := by
      show (if n.kind.typed then some Role.type else none) = _
      rw [if_pos htyped]
    have hmember : Ty.ofData? d = .ok (some t) := by
      unfold Ty.ofData?
      split
      · cases hback
      · rw [hback]
        rfl
    rw [Value.partsOf, hrole]
    show (Ty.ofData? d >>= fun _ => _) = _
    rw [hmember, Value.partsOf]
    rfl

/-- What is written of the head of a node is read back as its parts. -/
theorem exists_headMembers (h : n.IsMade) :
    ∃ ms, Value.headMembers n.pos n.source n.type? = .ok ms ∧
      Value.partsOf n.kind ms = .ok n.headParts := by
  have hplace : Value.partsOf n.kind (if n.pos.isKnown then [("pos", n.pos.toData)] else []) =
      .ok (if n.pos.isKnown then [.pos n.pos] else []) := by
    split <;> rfl
  obtain ⟨ss, hss, hsource⟩ := exists_sourceMembers h
  obtain ⟨ts, hts, htype⟩ := exists_typeMembers h
  refine ⟨_, headMembers_eq hss hts, ?_⟩
  exact Value.partsOf_append hplace (Value.partsOf_append hsource htype)

/-- What is written of fields is read back field by field. -/
theorem partsOf_fields {kind : Kind} {slots : List Slot} (hslots : slots ⊆ kind.slots)
    {ds : List Data} {vs : List Value} (h : Value.itemsOf ds = .ok vs) :
    Value.partsOf kind ((slots.map (·.field.key)).zip ds) = .ok (fieldParts slots vs) := by
  induction slots generalizing ds vs with
  | nil => rfl
  | cons slot slots ih =>
    cases ds with
    | nil =>
      rw [Value.itemsOf] at h
      obtain rfl := Except.ok.inj h
      rfl
    | cons d ds =>
      rw [Value.itemsOf] at h
      obtain ⟨w, hw, h⟩ := Fault.exists_of_bind h
      obtain ⟨ws, hws, h⟩ := Fault.exists_of_bind h
      obtain rfl := Except.ok.inj h
      rw [List.map_cons, List.zip_cons_cons, Value.partsOf,
        Kind.role?_key kind slot (hslots (by simp))]
      show (Value.ofExchange d >>= fun _ => _) = _
      rw [hw]
      show (Value.partsOf kind _ >>= fun _ => _) = _
      rw [ih (fun s hs => hslots (by simp [hs])) hws]
      rfl

/-! ### Making the node again -/

/-- A field is looked for in what comes first, and then in the rest. -/
theorem field?_append (front rest : List Part) (f : Field) :
    Part.field? (front ++ rest) f = (Part.field? front f).or (Part.field? rest f) := by
  unfold Part.field?
  exact List.findSome?_append

/-- A field that comes first is found. -/
theorem field?_cons_self (f : Field) (v : Value) (rest : List Part) :
    Part.field? (.field f v :: rest) f = some v := by
  simp [Part.field?]

/-- A field is not found in the part of another one. -/
theorem field?_cons_of_ne {f g : Field} (h : g ≠ f) (v : Value) (rest : List Part) :
    Part.field? (.field g v :: rest) f = Part.field? rest f := by
  simp [Part.field?, h]

/-- Each slot is filled from the part for its field. -/
theorem map_fill?_fieldParts {slots : List Slot} {vs : List Value} {front : List Part}
    (hlength : vs.length = slots.length) (hnodup : (slots.map Slot.field).Nodup)
    (hfront : ∀ slot ∈ slots, Part.field? front slot.field = none) :
    slots.map (fun slot => slot.fill? (front ++ fieldParts slots vs)) = vs.map some := by
  -- along the slots: the parts that are passed move to the front
  induction slots generalizing vs front with
  | nil =>
    rw [List.length_nil, List.length_eq_zero_iff] at hlength
    rw [hlength]
    rfl
  | cons slot slots ih =>
    cases vs with
    | nil => cases hlength
    | cons v vs =>
      rw [List.map_cons, List.nodup_cons] at hnodup
      have hhead : Part.field? (front ++ fieldParts (slot :: slots) (v :: vs)) slot.field =
          some v := by
        rw [field?_append, hfront slot (by simp), Option.none_or]
        exact field?_cons_self _ _ _
      have htail : slots.map (fun other => other.fill? ((front ++ [.field slot.field v]) ++
          fieldParts slots vs)) = vs.map some := by
        apply ih
        · simpa using hlength
        · exact hnodup.2
        · intro other hother
          have hne : slot.field ≠ other.field := by
            intro heq
            exact hnodup.1 (heq ▸ List.mem_map_of_mem hother)
          rw [field?_append, hfront other (by simp [hother]), Option.none_or]
          exact field?_cons_of_ne hne _ _
      rw [List.append_assoc] at htail
      rw [List.map_cons, List.map_cons, ← htail]
      refine congrArg (· :: _) ?_
      unfold Slot.fill?
      rw [hhead]
      rfl

/-- There is no field among the parts of the head. -/
theorem field?_headParts (n : Node) (f : Field) : Part.field? n.headParts f = none := by
  unfold headParts Part.field?
  cases n.pos.isKnown <;> cases n.source.truthy <;> cases n.type? <;> rfl

/-- The place is among the parts of the head if it is known. -/
theorem pos?_headParts (n : Node) :
    Part.pos? n.headParts = if n.pos.isKnown then some n.pos else none := by
  unfold headParts Part.pos?
  cases n.pos.isKnown <;> cases n.source.truthy <;> cases n.type? <;> rfl

/-- The source is among the parts of the head unless it is empty. -/
theorem source?_headParts (n : Node) :
    Part.source? n.headParts = if n.source.truthy then some n.source else none := by
  unfold headParts Part.source?
  cases n.pos.isKnown <;> cases n.source.truthy <;> cases n.type? <;> rfl

/-- The type is among the parts of the head if there is one. -/
theorem type?_headParts (n : Node) : Part.type? n.headParts = n.type? := by
  unfold headParts Part.type?
  cases n.pos.isKnown <;> cases n.source.truthy <;> cases n.type? <;> rfl

/-- The parts for fields are no places, sources and types. -/
theorem findSome?_fieldParts {α : Type} {look : Part → Option α}
    (hlook : ∀ f v, look (.field f v) = none) (slots : List Slot) (vs : List Value) :
    (fieldParts slots vs).findSome? look = none := by
  induction slots generalizing vs with
  | nil => rfl
  | cons slot slots ih =>
    cases vs with
    | nil => rfl
    | cons v vs =>
      show List.findSome? look (.field slot.field v :: fieldParts slots vs) = none
      rw [List.findSome?_cons, hlook]
      exact ih vs

/-- What is looked for in the head is not hidden by the fields. -/
theorem findSome?_append_fieldParts {α : Type} {look : Part → Option α}
    (hlook : ∀ f v, look (.field f v) = none) (front : List Part) (slots : List Slot)
    (vs : List Value) :
    (front ++ fieldParts slots vs).findSome? look = front.findSome? look := by
  rw [List.findSome?_append, findSome?_fieldParts hlook, Option.or_none]

section

variable (n : Node) (slots : List Slot) (vs : List Value)

/-- The place that is read back is the rebuilt one. -/
theorem pos?_parts : (Part.pos? (n.headParts ++ fieldParts slots vs)).getD .unknown =
    n.pos.rebuilt := by
  have hhead : Part.pos? (n.headParts ++ fieldParts slots vs) = Part.pos? n.headParts :=
    findSome?_append_fieldParts (fun _ _ => rfl) _ _ _
  rw [hhead, pos?_headParts]
  unfold Pos.rebuilt
  split <;> rfl

/-- The source that is read back is the rebuilt one. -/
theorem source?_parts {n : Node} (h : n.source.IsTextOrNull) :
    (Part.source? (n.headParts ++ fieldParts slots vs)).getD (.text "") = n.rebuiltSource := by
  have hhead : Part.source? (n.headParts ++ fieldParts slots vs) = Part.source? n.headParts :=
    findSome?_append_fieldParts (fun _ _ => rfl) _ _ _
  rw [hhead, source?_headParts]
  unfold rebuiltSource
  rcases h with hs | ⟨s, hs⟩ <;> rw [hs]
  · rfl
  · by_cases hempty : s = "" <;> simp [Value.truthy, Value.isNull, hempty]

/-- The type that is read back is the type of the node. -/
theorem type?_parts : Part.type? (n.headParts ++ fieldParts slots vs) = n.type? := by
  rw [← type?_headParts n]
  exact congrArg Option.join (findSome?_append_fieldParts (fun _ _ => rfl) _ _ _)

end

section made

variable (h : n.IsMade)
include h

/-- The parts that are read back of a node. -/
theorem fill?_parts :
    n.kind.slots.map (fun slot => slot.fill?
      (n.headParts ++ fieldParts n.kind.slots (n.fields.map Value.rebuilt))) =
        (n.fields.map Value.rebuilt).map some := by
  apply map_fill?_fieldParts
  · rw [List.length_map, h.length]
  · exact n.kind.nodup_fields
  · exact fun slot _ => field?_headParts n slot.field

/-- The parts that are read back of a node are put together to the rebuilt one. -/
theorem assembled_parts :
    assembled n.kind (n.headParts ++ fieldParts n.kind.slots (n.fields.map Value.rebuilt)) =
      n.rebuilt := by
  have hfields : (n.kind.slots.map fun slot => (slot.fill? (n.headParts ++
      fieldParts n.kind.slots (n.fields.map Value.rebuilt))).getD .null) =
        n.fields.map Value.rebuilt := by
    have hfill := congrArg (List.map fun v? => v?.getD .null) (fill?_parts h)
    rw [List.map_map, List.map_map] at hfill
    exact hfill.trans (List.map_id _)
  unfold assembled
  rw [pos?_parts, source?_parts _ _ h.source, type?_parts, hfields]
  rfl

/-- A rebuilt node gets the source that it has. -/
theorem defaultSource_rebuilt (hdefault : n.defaultSource = .ok n.source) :
    n.rebuilt.defaultSource = .ok n.rebuilt.source := by
  -- a source from a text or a type is a text, which is read back as it is
  have of_text {s : String} (hs : Value.text s = n.source) :
      n.rebuilt.source = .text s := by
    show n.rebuiltSource = _
    unfold rebuiltSource
    rw [← hs]
    rfl
  unfold defaultSource at hdefault ⊢
  rw [kind_rebuilt, type?_rebuilt, get_rebuilt]
  split at hdefault
  · rename_i hk
    obtain ⟨s, hs⟩ := h.text (by rw [hk]; rfl)
    rw [hs] at hdefault ⊢
    rw [of_text (Except.ok.inj hdefault)]
    rfl
  · rename_i hk
    obtain ⟨s, hs⟩ := h.text (by rw [hk]; rfl)
    rw [hs] at hdefault ⊢
    rw [of_text (Except.ok.inj hdefault)]
    rfl
  · rename_i hk
    obtain ⟨s, hs⟩ := h.text (by rw [hk]; rfl)
    rw [hs] at hdefault ⊢
    exact (of_text (Except.ok.inj hdefault)) ▸ rfl
  · cases ht : n.type? with
    | none => rfl
    | some t =>
      simp only [ht, Ty.describe_of_spelled t (h.type t ht).2.spelled] at hdefault ⊢
      rw [of_text (Except.ok.inj hdefault)]
      rfl
  · rfl

/-- A rebuilt node needs no source to be made up. -/
theorem withSource_rebuilt : n.rebuilt.withSource = .ok n.rebuilt := by
  unfold withSource
  split
  · rfl
  · rename_i hfalsy
    have hsource : ¬ n.source.truthy = true := by
      rw [← Value.truthy_rebuiltSource]
      exact hfalsy
    have hsettled := h.settled
    unfold withSource at hsettled
    rw [if_neg hsource] at hsettled
    obtain ⟨s, hs, hn⟩ := Fault.exists_of_bind hsettled
    have hsame : s = n.source := congrArg source (Except.ok.inj hn)
    rw [hsame] at hs
    rw [defaultSource_rebuilt h hs]
    rfl

/-- The parts that are read back of a node make the rebuilt one. -/
theorem ofParts_headParts :
    ofParts n.kind (n.headParts ++ fieldParts n.kind.slots (n.fields.map Value.rebuilt)) =
      .ok n.rebuilt := by
  rw [ofParts_eq_ok, assembled_parts h]
  refine ⟨?_, withSource_rebuilt h⟩
  unfold missing
  rw [List.map_eq_nil_iff, List.filter_eq_nil_iff]
  intro slot hslot hnone
  have hmem := List.mem_map_of_mem (f := fun slot => slot.fill? (n.headParts ++
    fieldParts n.kind.slots (n.fields.map Value.rebuilt))) hslot
  rw [fill?_parts h] at hmem
  obtain ⟨v, -, hv⟩ := List.mem_map.1 hmem
  rw [← hv] at hnone
  cases hnone

/-- A node is written, and what is written is read as the rebuilt node, if that holds of its
fields. -/
theorem exists_toData_of_fields {ds : List Data} (hds : Value.toItems n.fields = .ok ds)
    (hback : Value.itemsOf ds = .ok (n.fields.map Value.rebuilt)) :
    ∃ ms, n.toValue.toData = .ok (.object ms) ∧
      Value.ofExchange (.object ms) = .ok n.rebuilt.toValue := by
  obtain ⟨head, hhead, hheadParts⟩ := exists_headMembers h
  refine ⟨("kind", .text n.kind.name) :: (head ++ (n.kind.slots.map (·.field.key)).zip ds),
    ?_, ?_⟩
  · unfold toValue
    rw [Value.toData, hhead]
    show (Value.toItems n.fields >>= fun _ => _) = _
    rw [hds]
    rfl
  · have hparts : Value.partsOf n.kind (("kind", .text n.kind.name) ::
        (head ++ (n.kind.slots.map (·.field.key)).zip ds)) =
          .ok (n.headParts ++ fieldParts n.kind.slots (n.fields.map Value.rebuilt)) :=
      Value.partsOf_append hheadParts (partsOf_fields (List.Subset.refl _) hback)
    rw [Value.ofExchange, Kind.ofMembers_name]
    show (Value.partsOf n.kind _ >>= fun _ => _) = _
    rw [hparts]
    show (ofParts n.kind _ >>= fun _ => _) = _
    rw [ofParts_headParts h]
    rfl

end made

end Node

/-! ### Whole trees -/

namespace Value

mutual

/-- A tree that was read is written, and what is written is read as the rebuilt tree. -/
theorem exists_toData : ∀ v : Value, v.IsRead →
    ∃ e, v.toData = .ok e ∧ ofExchange e = .ok v.rebuilt
  | null, _ => ⟨.null, by rw [toData], by rw [ofExchange]; rfl⟩
  | bool b, _ => ⟨.bool b, by rw [toData], by rw [ofExchange]; rfl⟩
  | int n, _ => ⟨.int n, by rw [toData], by rw [ofExchange]; rfl⟩
  | float x, _ => ⟨.float x, by rw [toData], by rw [ofExchange]; rfl⟩
  | text s, _ => ⟨.text s, by rw [toData], by rw [ofExchange]; rfl⟩
  | object _, h => absurd h (by simp [IsRead])
  | list vs, h => by
    rw [IsRead] at h
    obtain ⟨ds, hds, hback⟩ := exists_toItems vs h
    refine ⟨.list ds, ?_, ?_⟩
    · rw [toData, hds]
      rfl
    · rw [ofExchange, hback, rebuilt_list]
      rfl
  | node kind pos source type? fields, h => by
    rw [IsRead] at h
    obtain ⟨ds, hds, hback⟩ := exists_toItems fields h.2
    obtain ⟨ms, hms, hnode⟩ := Node.exists_toData_of_fields h.1 hds hback
    refine ⟨.object ms, hms, ?_⟩
    rw [hnode, ← rebuilt_toValue]
    rfl

/-- Items that were read are written, and what is written is read as the rebuilt ones. -/
theorem exists_toItems : ∀ vs : List Value, AreRead vs →
    ∃ ds, toItems vs = .ok ds ∧ itemsOf ds = .ok (vs.map rebuilt)
  | [], _ => ⟨[], by rw [toItems], by rw [itemsOf]; rfl⟩
  | v :: vs, h => by
    obtain ⟨d, hd, hback⟩ := exists_toData v h.1
    obtain ⟨ds, hds, hbacks⟩ := exists_toItems vs h.2
    refine ⟨d :: ds, ?_, ?_⟩
    · rw [toItems, hd, hds]
      rfl
    · rw [itemsOf, hback, hbacks]
      rfl

end

/-! ### Writing a rebuilt tree -/

mutual

/-- Plain data in a rebuilt value are those in the value. -/
theorem plain_rebuilt : ∀ v : Value, v.rebuilt.plain = v.plain
  | null | bool _ | int _ | float _ | text _ | object _ | node .. => rfl
  | list vs => by rw [rebuilt, plain, plain, plainItems_rebuiltAll vs]

/-- Plain data in rebuilt values are those in the values. -/
theorem plainItems_rebuiltAll : ∀ vs : List Value, plainItems (rebuiltAll vs) = plainItems vs
  | [] => rfl
  | v :: vs => by
    rw [rebuiltAll, plainItems, plainItems, plain_rebuilt v, plainItems_rebuiltAll vs]

end

/-- What is left out of the head of a node is left out of the rebuilt one. -/
theorem headMembers_rebuilt (n : Node) :
    headMembers n.pos.rebuilt n.rebuiltSource n.type? = headMembers n.pos n.source n.type? := by
  have hplace : (if n.pos.rebuilt.isKnown then [("pos", n.pos.rebuilt.toData)] else []) =
      if n.pos.isKnown then [("pos", n.pos.toData)] else [] := by
    rw [Pos.isKnown_rebuilt]
    split
    · rename_i h
      rw [Pos.rebuilt_of_isKnown h]
    · rfl
  have hplain (h : n.source.truthy = true) : n.rebuiltSource.plain = n.source.plain := by
    unfold Node.rebuiltSource
    split
    · rename_i hnull
      cases hs : n.source <;> simp_all [isNull, truthy]
    · exact plain_rebuilt n.source
  unfold headMembers
  rw [hplace, truthy_rebuiltSource]
  by_cases htruthy : n.source.truthy = true
  · rw [if_pos htruthy, if_pos htruthy, hplain htruthy]
  · rw [if_neg htruthy, if_neg htruthy]

mutual

/-- A rebuilt tree is written as the tree is. -/
theorem toData_rebuilt : ∀ v : Value, v.rebuilt.toData = v.toData
  | null | bool _ | int _ | float _ | text _ | object _ => rfl
  | list vs => by rw [rebuilt, toData, toData, toItems_rebuiltAll vs]
  | node kind pos source type? fields => by
    rw [rebuilt, toData, toData, toItems_rebuiltAll fields]
    rw [show headMembers pos.rebuilt (if source.isNull then text "" else source.rebuilt) type? =
      headMembers pos source type? from
        headMembers_rebuilt ⟨kind, pos, source, type?, fields⟩]

/-- Rebuilt items are written as the items were. -/
theorem toItems_rebuiltAll : ∀ vs : List Value, toItems (rebuiltAll vs) = toItems vs
  | [] => rfl
  | v :: vs => by
    rw [rebuiltAll, toItems, toItems, toData_rebuilt v, toItems_rebuiltAll vs]

end

end Value

/-! ### Nodes -/

/-- A node that is read from a legible datum is written, and what is written is read as the rebuilt
node. -/
theorem Node.exists_toData {d : Data} {v : Value} (hd : d.isLegible = true)
    (h : Node.ofData d = .ok v) :
    ∃ e, v.toData = .ok e ∧ Node.ofData e = .ok v.rebuilt ∧ v.rebuilt.toData = .ok e := by
  cases d with
  | object ms =>
    replace h : Value.ofExchange (.object ms) = .ok v := h
    have hread := Value.isRead_of_ofExchange hd h
    obtain ⟨e, he, hback⟩ := Value.exists_toData v hread
    refine ⟨e, he, ?_, by rw [Value.toData_rebuilt, he]⟩
    rw [Value.ofExchange] at h
    obtain ⟨kind, -, h⟩ := Fault.exists_of_bind h
    obtain ⟨parts, -, h⟩ := Fault.exists_of_bind h
    obtain ⟨n, -, h⟩ := Fault.exists_of_bind h
    obtain rfl := Except.ok.inj h
    -- a node is written as an object
    unfold Node.toValue at he
    rw [Value.toData] at he
    obtain ⟨head, -, he⟩ := Fault.exists_of_bind he
    obtain ⟨contents, -, he⟩ := Fault.exists_of_bind he
    obtain rfl := Except.ok.inj he
    exact hback
  | _ => cases h

end CodeSample

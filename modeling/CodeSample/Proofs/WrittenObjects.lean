import CodeSample.Proofs.Grammar
import CodeSample.Proofs.TypeCodec
import CodeSample.Syntax.Codec

/-!
# The objects that a tree is written as

A tree is walked from node to node, by the children of each (`Value.walk_node`), and written from
field to field, by what stands in each. Both pass over the same things: what is no node has no
children and is written as no object, and types are no nodes. So the objects in what is written are
the nodes of the walk.

* `Data.objects` are the objects in a datum, each before those that stand in it, but for types;
* `Node.IsWrittenAs` says that an object is the one that a node is written as, with its fields in
  their order;
* `Value.isDirect` says that the nodes in a field stand in it or in a list there, and
  `Node.isDirect_of_isShaped`: nodes of the samples' language hold nothing else;
* `Value.walk_matches`: in trees of such nodes the walk and the objects go side by side, and
  `Value.exists_toData_of_types`: a tree can be written if its types have kinds;
* `Value.walk_matches_objects` is the statement for trees of the samples' language.
-/

namespace CodeSample

/-! ### Objects -/

namespace Data

mutual

/-- The objects in a datum with their depths below a given one: each object comes before those in
its members, which are one deeper. What stands at the key of a type is passed over. -/
def objects (depth : Nat) : Data → List (Nat × List (String × Data))
  | object ms => (depth, ms) :: objectsIn (depth + 1) ms
  | list ds => objectsOf depth ds
  | _ => []

/-- The objects in the members of an object, but for those of a type. -/
def objectsIn (depth : Nat) : List (String × Data) → List (Nat × List (String × Data))
  | [] => []
  | (key, d) :: ms => (if key = "typ" then [] else objects depth d) ++ objectsIn depth ms

/-- The objects in the items of a list. -/
def objectsOf (depth : Nat) : List Data → List (Nat × List (String × Data))
  | [] => []
  | d :: ds => objects depth d ++ objectsOf depth ds

end

/-- The objects in two lists of members are those in the one and then those in the other. -/
theorem objectsIn_append (depth : Nat) (ms ns : List (String × Data)) :
    objectsIn depth (ms ++ ns) = objectsIn depth ms ++ objectsIn depth ns := by
  induction ms with
  | nil => rfl
  | cons m ms ih => rw [List.cons_append, objectsIn, objectsIn, ih, List.append_assoc]

end Data

/-! ### Nodes and their objects -/

/-- An object is the one that a node is written as. Behind the kind it may say where the node
stands, how it was written and what type it has; then come the fields, in the order of the kind. -/
def Node.IsWrittenAs (n : Node) (ms : List (String × Data)) : Prop :=
  n.toValue.toData = .ok (.object ms) ∧
    ∃ head : List String, head.Sublist ["pos", "source", "typ"] ∧
      ms.map Prod.fst = "kind" :: head ++ n.kind.slots.map (·.field.key)

namespace Value

/-- Whether a value is neither a list nor an object that was kept as it was read. -/
def isSingle : Value → Bool
  | list _ | object _ => false
  | _ => true

/-- Whether the nodes in a field stand in it or in a list there. -/
def isDirect : Value → Bool
  | list vs => vs.all isSingle
  | v => v.isSingle

/-- A node is neither a list nor an object. -/
theorem isSingle_of_isOneOf {kinds : List Kind} {v : Value} (h : v.isOneOf kinds = true) :
    v.isSingle = true := by
  obtain ⟨n, rfl, -⟩ := exists_of_isOneOf h
  rfl

/-- What a field is declared to hold is direct. -/
theorem isDirect_of_holds {content : Content} {v : Value} (h : content.holds v = true) :
    v.isDirect = true := by
  cases content with
  | text => cases v <;> first | rfl | cases h
  | mark => cases v <;> first | rfl | cases h
  | one kinds =>
    obtain ⟨n, rfl, -⟩ := exists_of_isOneOf h
    rfl
  | maybe kinds =>
    rcases Bool.or_eq_true _ _ ▸ h with hnull | hone
    · cases v <;> first | rfl | cases hnull
    · obtain ⟨n, rfl, -⟩ := exists_of_isOneOf hone
      rfl
  | many kinds =>
    cases v with
    | list vs =>
      rw [Content.holds, List.all_eq_true] at h
      rw [isDirect, List.all_eq_true]
      exact fun w hw => isSingle_of_isOneOf (h w hw)
    | _ => cases h

end Value

/-- A node has a text as its source, and in each of its fields what can be reached. -/
structure Node.IsDirect (n : Node) : Prop where
  source : ∃ s, n.source = .text s
  length : n.fields.length = n.kind.slots.length
  fields : ∀ v ∈ n.fields, v.isDirect = true

/-- A shaped node holds nodes in its fields or in lists there, and nowhere else. -/
theorem Node.isDirect_of_isShaped {g : Grammar} {n : Node}
    (hg : ∀ kind, (g kind).length = kind.slots.length) (h : n.isShaped g = true) :
    n.IsDirect where
  source := n.source_of_isShaped h
  length := n.length_of_isShaped h hg
  fields v hv := by
    obtain ⟨-, -, hlength, hholds⟩ := isShaped_iff.1 h
    obtain ⟨i, hi, rfl⟩ := List.getElem_of_mem hv
    have hcontent : i < (g n.kind).length := hlength ▸ hi
    refine Value.isDirect_of_holds (hholds ((g n.kind)[i], n.fields[i]) ?_)
    refine List.mem_of_getElem? (i := i) ?_
    rw [List.getElem?_zip_eq_some]
    exact ⟨List.getElem?_eq_getElem hcontent, List.getElem?_eq_getElem hi⟩

/-! ### Side by side -/

/-- A node of a walk and an object, at the same depth. -/
def Matches (entry : Nat × Node) (object : Nat × List (String × Data)) : Prop :=
  entry.1 = object.1 ∧ entry.2.IsWrittenAs object.2

namespace Value

/-- The member for the type of a node: one, or none where there is no type. -/
def typeMembers : Option Ty → Except Fault (List (String × Data))
  | some t => do return [("typ", ← t.toData)]
  | none => .ok []

/-- The members in front of the fields of a node, one after the other. -/
theorem headMembers_text (pos : Pos) (s : String) (type? : Option Ty) :
    headMembers pos (.text s) type? = typeMembers type? >>= fun typed =>
      .ok ((if pos.isKnown then [("pos", pos.toData)] else []) ++
        (if (text s).truthy then [("source", .text s)] else []) ++ typed) := by
  unfold headMembers typeMembers
  cases (text s).truthy <;> cases type? with
  | none => rfl
  | some t =>
    dsimp only
    cases t.toData <;> rfl

/-- What is written in front of the fields of a node holds no objects but those of its type. -/
theorem exists_of_headMembers {pos : Pos} {s : String} {type? : Option Ty}
    {head : List (String × Data)} (h : headMembers pos (.text s) type? = .ok head) :
    (head.map Prod.fst).Sublist ["pos", "source", "typ"] ∧
      ∀ depth, Data.objectsIn depth head = [] := by
  rw [headMembers_text] at h
  obtain ⟨typed, htyped, h⟩ := Fault.exists_of_bind h
  obtain rfl := Except.ok.inj h
  have htyped : typed = [] ∨ ∃ d, typed = [("typ", d)] := by
    cases type? with
    | none => exact Or.inl (Except.ok.inj htyped).symm
    | some t =>
      obtain ⟨d, -, htyped⟩ := Fault.exists_of_bind htyped
      exact Or.inr ⟨d, (Except.ok.inj htyped).symm⟩
  -- each of the three members is there or left out
  rcases htyped with rfl | ⟨d, rfl⟩ <;> split <;> split <;>
    exact ⟨by simp, fun _ => rfl⟩

/-- As many items are written as there are. -/
theorem length_of_toItems {vs : List Value} {ds : List Data} (h : toItems vs = .ok ds) :
    ds.length = vs.length := by
  induction vs generalizing ds with
  | nil =>
    rw [toItems] at h
    obtain rfl := Except.ok.inj h
    rfl
  | cons v vs ih =>
    rw [toItems] at h
    obtain ⟨d, -, h⟩ := Fault.exists_of_bind h
    obtain ⟨rest, hrest, h⟩ := Fault.exists_of_bind h
    obtain rfl := Except.ok.inj h
    rw [List.length_cons, List.length_cons, ih hrest]

/-- A field that holds a single value is walked as the value. -/
theorem walkFields_single {v : Value} (h : v.isSingle = true) (depth : Nat) :
    walkFields depth [v] = walk depth v := by
  cases v with
  | list _ | object _ => cases h
  | _ =>
    rw [walkFields, walkFields, List.append_nil]
    simp

/-- In a single value no node is out of reach. -/
theorem isDirect_of_isSingle {v : Value} (h : v.isSingle = true) : v.isDirect = true := by
  cases v with
  | list _ | object _ => cases h
  | _ => rfl

section

variable {p : Node → Bool}

mutual

/-- What stands in a field is walked as it is written: each node comes first, and then what stands
in its fields. -/
theorem walk_matches (hp : ∀ n, p n = true → n.IsDirect) : ∀ {v : Value} {d : Data},
    v.all p = true → v.isDirect = true → v.toData = .ok d →
      ∀ depth, List.Forall₂ Matches (walkFields depth [v]) (d.objects depth)
  | node kind pos source type? fields, d, h, _, hd, depth => by
    rw [all, Bool.and_eq_true] at h
    obtain ⟨⟨s, hs⟩, hlength, hfields⟩ := hp _ h.1
    obtain rfl : source = .text s := hs
    have hwritten := hd
    rw [toData] at hd
    obtain ⟨head, hhead, hd⟩ := Fault.exists_of_bind hd
    obtain ⟨contents, hcontents, hd⟩ := Fault.exists_of_bind hd
    obtain rfl := Except.ok.inj hd
    obtain ⟨hkeys, hnone⟩ := exists_of_headMembers hhead
    have hrest := walkFields_matches hp h.2 hfields hcontents hlength.symm (depth + 1)
    rw [walkFields_single rfl, walk, Data.objects]
    refine .cons ⟨rfl, hwritten, head.map Prod.fst, hkeys, ?_⟩ ?_
    · have hfst : ((kind.slots.map (·.field.key)).zip contents).map Prod.fst =
          kind.slots.map (·.field.key) := by
        refine List.map_fst_zip (Nat.le_of_eq ?_)
        rw [List.length_map, length_of_toItems hcontents]
        exact hlength.symm
      rw [List.map_append, List.map_cons, hfst]
    · rw [List.cons_append, Data.objectsIn, Data.objectsIn_append, hnone]
      exact hrest
  | list vs, d, h, hdirect, hd, depth => by
    rw [all] at h
    rw [toData] at hd
    obtain ⟨ds, hds, hd⟩ := Fault.exists_of_bind hd
    obtain rfl := Except.ok.inj hd
    rw [walkFields, walkFields, List.append_nil, Data.objects]
    exact walkItems_matches hp h hdirect hds depth
  | null, d, _, _, hd, depth | bool _, d, _, _, hd, depth | int _, d, _, _, hd, depth
  | float _, d, _, _, hd, depth | text _, d, _, _, hd, depth => by
    rw [toData] at hd
    obtain rfl := Except.ok.inj hd
    exact .nil

/-- The nodes in the fields of a node and the objects in the members that they are written as go
side by side. -/
theorem walkFields_matches (hp : ∀ n, p n = true → n.IsDirect) :
    ∀ {fields : List Value} {ds : List Data} {slots : List Slot}, allOf p fields = true →
      (∀ v ∈ fields, v.isDirect = true) → toItems fields = .ok ds →
        slots.length = fields.length → ∀ depth, List.Forall₂ Matches (walkFields depth fields)
          (Data.objectsIn depth ((slots.map (·.field.key)).zip ds))
  | [], ds, slots, _, _, hds, hlength, depth => by
    obtain rfl := List.length_eq_zero_iff.1 hlength
    exact .nil
  | v :: fields, ds, slots, h, hdirect, hds, hlength, depth => by
    obtain ⟨slot, slots, rfl⟩ := List.exists_cons_of_length_eq_add_one hlength
    rw [allOf, Bool.and_eq_true] at h
    rw [List.forall_mem_cons] at hdirect
    rw [toItems] at hds
    obtain ⟨d, hd, hds⟩ := Fault.exists_of_bind hds
    obtain ⟨rest, hrest, hds⟩ := Fault.exists_of_bind hds
    obtain rfl := Except.ok.inj hds
    have hkey : slot.field.key ≠ "typ" := by cases slot.field <;> decide
    rw [walkFields_cons, List.map_cons, List.zip_cons_cons, Data.objectsIn, if_neg hkey]
    exact List.rel_append (walk_matches hp h.1 hdirect.1 hd depth)
      (walkFields_matches hp h.2 hdirect.2 hrest (Nat.succ.inj hlength) depth)

/-- The nodes among the items of a list and the objects in what they are written as go side by side.
-/
theorem walkItems_matches (hp : ∀ n, p n = true → n.IsDirect) :
    ∀ {vs : List Value} {ds : List Data}, allOf p vs = true → vs.all isSingle = true →
      toItems vs = .ok ds →
        ∀ depth, List.Forall₂ Matches (walkItems depth vs) (Data.objectsOf depth ds)
  | [], ds, _, _, hds, depth => by
    rw [toItems] at hds
    obtain rfl := Except.ok.inj hds
    exact .nil
  | v :: vs, ds, h, hsingle, hds, depth => by
    rw [allOf, Bool.and_eq_true] at h
    rw [List.all_cons, Bool.and_eq_true] at hsingle
    rw [toItems] at hds
    obtain ⟨d, hd, hds⟩ := Fault.exists_of_bind hds
    obtain ⟨rest, hrest, hds⟩ := Fault.exists_of_bind hds
    obtain rfl := Except.ok.inj hds
    rw [walkItems, ← walkFields_single hsingle.1, Data.objectsOf]
    exact List.rel_append (walk_matches hp h.1 (isDirect_of_isSingle hsingle.1) hd depth)
      (walkItems_matches hp h.2 hsingle.2 hrest depth)

end

end

/-! ### What can be written -/

end Value

namespace Ty

mutual

/-- Whether a type and all types in it are of a kind that is known. -/
def isKnown : Ty → Bool
  | primitive _ => true
  | named .. => true
  | array t => isKnown t
  | map t => isKnown t
  | union ts => areKnown ts
  | unspelled => false

/-- Whether it is so of all of several types. -/
def areKnown : List Ty → Bool
  | [] => true
  | t :: ts => isKnown t && areKnown ts

end

mutual

/-- A type that has a kind all the way down can be written. -/
theorem exists_toData_of_isKnown : ∀ {t : Ty}, t.isKnown = true → ∃ d, t.toData = .ok d
  | primitive _, _ | named .., _ => by
    rw [toData]
    exact ⟨_, rfl⟩
  | array t, h | map t, h => by
    obtain ⟨d, hd⟩ := exists_toData_of_isKnown (t := t) h
    rw [toData, hd]
    exact ⟨_, rfl⟩
  | union ts, h => by
    rw [isKnown] at h
    obtain ⟨ds, hds⟩ := exists_toItems_of_areKnown h
    rw [toData, hds]
    exact ⟨_, rfl⟩
  | unspelled, h => by
    cases h

/-- Types that have kinds all the way down can be written. -/
theorem exists_toItems_of_areKnown : ∀ {ts : List Ty}, areKnown ts = true →
    ∃ ds, toItems ts = .ok ds
  | [], _ => ⟨[], by rw [toItems]⟩
  | t :: ts, h => by
    rw [areKnown, Bool.and_eq_true] at h
    obtain ⟨d, hd⟩ := exists_toData_of_isKnown h.1
    obtain ⟨ds, hds⟩ := exists_toItems_of_areKnown h.2
    rw [toItems, hd, hds]
    exact ⟨_, rfl⟩

end

end Ty

namespace Value

/-- Whether all types in a tree have a kind. -/
def typesAreKnown (v : Value) : Bool := v.all fun n => n.type?.all Ty.isKnown

section

variable {p : Node → Bool}

/-- The type of a node can be written if it has a kind all the way down, and so can no type. -/
theorem exists_typeMembers {type? : Option Ty} (h : type?.all Ty.isKnown = true) :
    ∃ typed, typeMembers type? = .ok typed := by
  cases type? with
  | none => exact ⟨[], rfl⟩
  | some t =>
    obtain ⟨d, hd⟩ := Ty.exists_toData_of_isKnown h
    rw [typeMembers, hd]
    exact ⟨_, rfl⟩

mutual

/-- A tree can be written if its sources are texts and its types have kinds. -/
theorem exists_toData_of_types (hp : ∀ n, p n = true → n.IsDirect) :
    ∀ {v : Value}, v.all p = true → v.typesAreKnown = true → ∃ d, v.toData = .ok d
  | node kind pos source type? fields, h, hknown => by
    rw [typesAreKnown, all, Bool.and_eq_true] at hknown
    rw [all, Bool.and_eq_true] at h
    obtain ⟨s, hs⟩ := (hp _ h.1).source
    obtain rfl : source = .text s := hs
    obtain ⟨typed, htyped⟩ := exists_typeMembers hknown.1
    obtain ⟨contents, hcontents⟩ := exists_toItems_of_types hp h.2 hknown.2
    rw [toData, headMembers_text, htyped, hcontents]
    exact ⟨_, rfl⟩
  | list vs, h, hknown => by
    rw [all] at h
    rw [typesAreKnown, all] at hknown
    obtain ⟨ds, hds⟩ := exists_toItems_of_types hp h hknown
    rw [toData, hds]
    exact ⟨_, rfl⟩
  | null, _, _ | bool _, _, _ | int _, _, _ | float _, _, _ | text _, _, _ | object _, _, _ => by
    rw [toData]
    exact ⟨_, rfl⟩

/-- Items can be written if the types in them have kinds. -/
theorem exists_toItems_of_types (hp : ∀ n, p n = true → n.IsDirect) :
    ∀ {vs : List Value}, allOf p vs = true →
      allOf (fun n => n.type?.all Ty.isKnown) vs = true → ∃ ds, toItems vs = .ok ds
  | [], _, _ => ⟨[], by rw [toItems]⟩
  | v :: vs, h, hknown => by
    rw [allOf, Bool.and_eq_true] at h hknown
    obtain ⟨d, hd⟩ := exists_toData_of_types hp h.1 hknown.1
    obtain ⟨ds, hds⟩ := exists_toItems_of_types hp h.2 hknown.2
    rw [toItems, hd, hds]
    exact ⟨_, rfl⟩

end

end

/-! ### Trees -/

/-- A tree of the samples' language can be written if the types in it have kinds. Whenever it is
written, the walk from each node to its children comes to the nodes whose objects stand in what is
written, types apart: to each of them once for each time that it stands there, in the order of the
objects and at their depth. In each object the fields stand in the order of their declaration. -/
theorem walk_matches_objects {v : Value} (h : v.IsShaped .declared) :
    (v.typesAreKnown = true → ∃ d, v.toData = .ok d) ∧
      ∀ d, v.toData = .ok d → List.Forall₂ Matches (v.walk 0) (d.objects 0) := by
  obtain ⟨hkind, hall⟩ := h
  have hdirect (n : Node) (hn : n.isShaped .declared = true) : n.IsDirect :=
    n.isDirect_of_isShaped Grammar.length_declared hn
  refine ⟨exists_toData_of_types hdirect hall, fun d hd => ?_⟩
  have hsingle : v.isSingle = true := by
    cases v with
    | node => rfl
    | _ => cases hkind
  rw [← walkFields_single hsingle]
  exact walk_matches hdirect hall (isDirect_of_isSingle hsingle) hd 0

/-- The declaration `let total = sum(first, 1, first)[0];`, in which one node has a place and a
type and stands in the list of arguments twice. The variable has no annotation. -/
def runningTotal : Value :=
  let expression (kind : Kind) (fields : List Value) : Value :=
    .node kind .unknown (.text "") none fields
  let first : Value := .node .identifier ⟨1, 16⟩ (.text "first")
    (some (.union [.primitive (.text "number"), .undefined])) [.text "first"]
  let sum := expression .callExpression [expression .identifier [.text "sum"],
    .list [first, expression .numericLiteral [.text "1"], first]]
  expression .variableStatement [expression .variableDeclarationList [
    .list [expression .variableDeclaration [expression .identifier [.text "total"], .null,
      expression .elementAccessExpression [sum, expression .numericLiteral [.text "0"]]]],
    .text "let"]]

/-- The running total is written as eleven objects, at the depths of its nodes. -/
theorem walk_matches_objects_runningTotal :
    runningTotal.IsShaped .declared ∧ runningTotal.typesAreKnown = true ∧
    ∃ d, runningTotal.toData = .ok d ∧
      List.Forall₂ Matches (runningTotal.walk 0) (d.objects 0) ∧
      (d.objects 0).map Prod.fst = [0, 1, 2, 3, 3, 4, 5, 5, 5, 5, 4] := by
  have hshaped : runningTotal.IsShaped .declared := by decide
  have hknown : runningTotal.typesAreKnown = true := by decide
  obtain ⟨hwritten, hmatches⟩ := walk_matches_objects hshaped
  obtain ⟨d, hd⟩ := hwritten hknown
  refine ⟨hshaped, hknown, d, hd, hmatches d hd, ?_⟩
  cases hd
  rfl

end Value

end CodeSample

import CodeSample.Proofs.Likeness
import CodeSample.Proofs.ReadTrees
import CodeSample.Proofs.Reordering

/-!
# Reading types in any order

A datum that describes a type may come with its members in any order, and with members besides that
no type has. If its names are texts and the members of its unions stand in lists, it is read as a
type or found to describe none, and nothing else happens.

* `Concur` says that two readings give what corresponds, or both find that nothing is described;
* `Data.isOrderlyType` is the check of a datum, along the type that it describes;
* `Ty.spelled_of_ofData`: the type that is read has texts as names;
* `Ty.concur_ofData`: data that differ in the order of members are read as the same type.
-/

namespace CodeSample

/-! ### Readings that concur -/

/-- Whether a fault says that a datum describes nothing. -/
def Fault.isMalformed : Fault → Bool
  | malformed _ => true
  | _ => false

/-- Two readings concur: they give what corresponds, or both find that nothing is described. -/
abbrev Concur {α' α : Type} (R : α' → α → Prop) : Except Fault α' → Except Fault α → Prop :=
  Tally (fun fault' fault => fault'.isMalformed = true ∧ fault.isMalformed = true) R

namespace Concur

variable {α' α : Type} {R : α' → α → Prop} {x' : Except Fault α'} {x : Except Fault α}

/-- Two data that describe nothing are read concurrently, whatever is wrong with each. -/
theorem malformed (cause' cause : Malformed) :
    Concur R (.error (.malformed cause')) (.error (.malformed cause)) := .error ⟨rfl, rfl⟩

/-- What concurs with another reading concurs with itself: it gives something, or finds that nothing
is described. -/
theorem self (h : Concur R x' x) : Concur Eq x x := by
  cases h with
  | ok => exact .ok rfl
  | error h => exact .error ⟨h.2, h.2⟩

/-- A reading that concurs with another one concurs with itself. -/
theorem self' (h : Concur R x' x) : Concur Eq x' x' := by
  cases h with
  | ok => exact .ok rfl
  | error h => exact .error ⟨h.1, h.1⟩

/-- Of two readings that concur, both give something or neither does. -/
theorem exists_ok_iff (h : Concur R x' x) : (∃ a', x' = .ok a') ↔ ∃ a, x = .ok a := by
  cases h with
  | ok => exact ⟨fun _ => ⟨_, rfl⟩, fun _ => ⟨_, rfl⟩⟩
  | error =>
    constructor
    · rintro ⟨_, ⟨⟩⟩
    · rintro ⟨_, ⟨⟩⟩

/-- Two readings that concur with themselves concur if they give something together. -/
theorem of_iff (h' : Concur Eq x' x') (h : Concur Eq x x)
    (hiff : (∃ a', x' = .ok a') ↔ ∃ a, x = .ok a)
    (hR : ∀ a' a, x' = .ok a' → x = .ok a → R a' a) : Concur R x' x := by
  cases h' with
  | ok =>
    obtain ⟨a, rfl⟩ := hiff.1 ⟨_, rfl⟩
    exact .ok (hR _ _ rfl rfl)
  | error hfault' =>
    cases h with
    | ok =>
      obtain ⟨a', ⟨⟩⟩ := hiff.2 ⟨_, rfl⟩
    | error hfault => exact .error ⟨hfault'.1, hfault.1⟩

/-- A reading that concurs with itself and gives nothing finds that nothing is described. -/
theorem exists_malformed (h : Concur Eq x x) (hx : ¬∃ a, x = .ok a) :
    ∃ cause, x = .error (.malformed cause) := by
  cases h with
  | ok => exact absurd ⟨_, rfl⟩ hx
  | @error fault _ hfault =>
    cases fault with
    | malformed cause => exact ⟨cause, rfl⟩
    | _ => cases hfault.1

end Concur

/-! ### Orderly data -/

/-- What a key is for in the object of a type. -/
inductive Ty.Role where
  | name
  | aliasName
  | element
  | members

/-- What a key is for in the object of a kind of type, if it is for anything but the kind or a
mark. -/
def Ty.role? : Option String → String → Option Ty.Role
  | some "primitive", "name" => some .name
  | some "named", "name" => some .name
  | some "named", "alias" => some .aliasName
  | some "array", "element" => some .element
  | some "map", "element" => some .element
  | some "union", "members" => some .members
  | _, _ => none

namespace Data

mutual

/-- Whether in the type that a datum describes the names are texts, the aliases texts or null and
the members of unions lists. Members that the type does not have may hold anything. -/
def isOrderlyType : Data → Bool
  | object ms => isOrderlyTypeObject (Ty.textMember? ms "kind") ms
  | _ => true

/-- Whether the members of the object of a kind of type are orderly. -/
def isOrderlyTypeObject (kind? : Option String) : List (String × Data) → Bool
  | [] => true
  | (key, d) :: ms =>
    (match Ty.role? kind? key with
      | some .name => d.isText
      | some .aliasName => d.isTextOrNull
      | some .element => isOrderlyType d
      | some .members => isOrderlyUnion d
      | none => true) && isOrderlyTypeObject kind? ms

/-- Whether a datum is a list of orderly types. -/
def isOrderlyUnion : Data → Bool
  | list ds => areOrderlyTypes ds
  | _ => false

/-- Whether several types are orderly. -/
def areOrderlyTypes : List Data → Bool
  | [] => true
  | d :: ds => isOrderlyType d && areOrderlyTypes ds

end

/-- What is asked of the datum at a key. -/
def fitsRole (d : Data) : Option Ty.Role → Prop
  | some .name => ∃ s, d = .text s
  | some .aliasName => d = .null ∨ ∃ s, d = .text s
  | some .element => d.isOrderlyType = true
  | some .members => d.isOrderlyUnion = true
  | none => True

variable {ms : List (String × Data)} {kind? : Option String} {key : String} {d : Data}

/-- Data are orderly types if each of them is. -/
theorem areOrderlyTypes_iff {ds : List Data} :
    areOrderlyTypes ds = true ↔ ∀ d ∈ ds, d.isOrderlyType = true := by
  induction ds with
  | nil => simp [areOrderlyTypes]
  | cons d ds ih => rw [areOrderlyTypes, Bool.and_eq_true, ih, List.forall_mem_cons]

/-- A datum is a text or null if it is one of the two. -/
theorem isTextOrNull_iff : d.isTextOrNull = true ↔ d = .null ∨ ∃ s, d = .text s := by
  rw [isTextOrNull, Bool.or_eq_true, beq_iff_eq, Ty.isText_iff, or_comm]

/-- In an orderly type the datum at each key fits what the key is for. -/
theorem fitsRole_of_mem (h : isOrderlyTypeObject kind? ms = true) (hmem : (key, d) ∈ ms) :
    d.fitsRole (Ty.role? kind? key) := by
  induction ms with
  | nil => cases hmem
  | cons m ms ih =>
    obtain ⟨k, x⟩ := m
    rw [isOrderlyTypeObject, Bool.and_eq_true] at h
    rcases List.mem_cons.1 hmem with heq | hmem
    · obtain ⟨rfl, rfl⟩ := Prod.mk.inj heq
      cases hrole : Ty.role? kind? key with
      | none => trivial
      | some role =>
        rw [hrole] at h
        cases role with
        | name => exact Ty.isText_iff.1 h.1
        | aliasName => exact isTextOrNull_iff.1 h.1
        | element => exact h.1
        | members => exact h.1
    · exact ih h.2 hmem

end Data

namespace Ty

variable {ms ls : List (String × Data)} {d e : Data}

/-! ### Reading by kind -/

/-- The element type is read from the member that is demanded. -/
theorem ofElement_eq (kind : String) (ms : List (String × Data)) :
    ofElement kind ms = demand kind "element" ms >>= ofData := by
  unfold demand
  induction ms with
  | nil => rw [ofElement]; rfl
  | cons m ms ih =>
    obtain ⟨k, d⟩ := m
    rw [ofElement, ih, Data.get?_cons]
    by_cases h : "element" = k
    · rw [if_pos (beq_iff_eq.2 h), if_pos h]
      rfl
    · rw [if_neg (by rwa [beq_iff_eq]), if_neg h]

/-- The members of a union are read from the member that is demanded. -/
theorem ofUnion_eq (ms : List (String × Data)) :
    ofUnion ms = demand "union" "members" ms >>= ofEnumerable := by
  unfold demand
  induction ms with
  | nil => rw [ofUnion]; rfl
  | cons m ms ih =>
    obtain ⟨k, d⟩ := m
    rw [ofUnion, ih, Data.get?_cons]
    by_cases h : "members" = k
    · rw [if_pos (beq_iff_eq.2 h), if_pos h]
      rfl
    · rw [if_neg (by rwa [beq_iff_eq]), if_neg h]

/-- The type that the members of an object describe, by the kind that they name. -/
def ofKind (ms : List (String × Data)) : Option String → Except Fault Ty
  | some "primitive" => do return primitive (← demand "primitive" "name" ms)
  | some "named" => do
    let name ← demand "named" "name" ms
    let struct := ((Data.get? ms "struct").getD (.bool false)).truthy
    return named name ((Data.get? ms "alias").getD .null) struct
  | some "array" => do return array (← ofData (← demand "array" "element" ms))
  | some "map" => do return map (← ofData (← demand "map" "element" ms))
  | some "union" => do unionOf (← ofEnumerable (← demand "union" "members" ms))
  | _ => .error (.malformed (.typeKind ((Data.get? ms "kind").getD .null)))

/-- An object is read by the kind that it names. -/
theorem ofData_object (ms : List (String × Data)) :
    ofData (.object ms) = ofKind ms (textMember? ms "kind") := by
  rw [ofData]
  simp only [ofElement_eq, ofUnion_eq, bind_assoc]
  rfl

/-! ### What is read of orderly data -/

/-- A member that is demanded and found. -/
theorem mem_of_demand {kind key : String} (h : demand kind key ms = .ok d) : (key, d) ∈ ms := by
  unfold demand at h
  split at h
  · rename_i hd
    obtain rfl := Except.ok.inj h
    exact Data.mem_of_get? hd
  · cases h

/-- Items that were read as types have spellings if each of them does. -/
theorem allSpelled_of_ofItems {ds : List Data} {ts : List Ty}
    (hds : ∀ d ∈ ds, ∀ t, ofData d = .ok t → t.Spelled) (h : ofItems ds = .ok ts) :
    AllSpelled ts := by
  induction ds generalizing ts with
  | nil =>
    rw [ofItems] at h
    obtain rfl := Except.ok.inj h
    trivial
  | cons d ds ih =>
    rw [ofItems] at h
    obtain ⟨t, ht, h⟩ := Fault.exists_of_bind h
    obtain ⟨us, hus, h⟩ := Fault.exists_of_bind h
    obtain rfl := Except.ok.inj h
    rw [List.forall_mem_cons] at hds
    exact ⟨hds.1 t ht, ih hds.2 hus⟩

/-- The type that the members of an orderly object describe, if that holds of the types among its
members. -/
theorem spelled_of_ofKind {kind? : Option String} {t : Ty}
    (hd : Data.isOrderlyTypeObject kind? ms = true)
    (hms : ∀ m ∈ ms, (m.2.isOrderlyType = true → ∀ t, ofData m.2 = .ok t → t.Spelled) ∧
      (m.2.isOrderlyUnion = true → ∀ ts, ofEnumerable m.2 = .ok ts → AllSpelled ts))
    (h : ofKind ms kind? = .ok t) : t.Spelled := by
  have hfits {kind key : String} {d : Data} (hd' : demand kind key ms = .ok d) :=
    Data.fitsRole_of_mem hd (mem_of_demand hd')
  unfold ofKind at h
  split at h
  · obtain ⟨name, hname, h⟩ := Fault.exists_of_bind h
    obtain rfl := Except.ok.inj h
    exact hfits hname
  · obtain ⟨name, hname, h⟩ := Fault.exists_of_bind h
    obtain rfl := Except.ok.inj h
    refine ⟨hfits hname, ?_⟩
    cases halias : Data.get? ms "alias" with
    | none => exact Or.inl rfl
    | some aliasName => exact Data.fitsRole_of_mem hd (Data.mem_of_get? halias)
  · obtain ⟨element, helement, h⟩ := Fault.exists_of_bind h
    obtain ⟨u, hu, h⟩ := Fault.exists_of_bind h
    obtain rfl := Except.ok.inj h
    exact (hms _ (mem_of_demand helement)).1 (hfits helement) u hu
  · obtain ⟨element, helement, h⟩ := Fault.exists_of_bind h
    obtain ⟨u, hu, h⟩ := Fault.exists_of_bind h
    obtain rfl := Except.ok.inj h
    exact (hms _ (mem_of_demand helement)).1 (hfits helement) u hu
  · obtain ⟨members, hmembers, h⟩ := Fault.exists_of_bind h
    obtain ⟨ts, hts, h⟩ := Fault.exists_of_bind h
    unfold unionOf at h
    split at h
    · cases h
    · obtain rfl := Except.ok.inj h
      exact (hms _ (mem_of_demand hmembers)).2 (hfits hmembers) ts hts
  · cases h

/-- The type that an orderly datum describes has texts as names. -/
theorem spelled_of_ofData (d : Data) :
    (d.isOrderlyType = true → ∀ t, ofData d = .ok t → t.Spelled) ∧
      (d.isOrderlyUnion = true → ∀ ts, ofEnumerable d = .ok ts → AllSpelled ts) := by
  induction d using Data.induct with
  | object ms ih =>
    refine ⟨fun hd t h => ?_, fun hd => ?_⟩
    · rw [Data.isOrderlyType] at hd
      rw [ofData_object] at h
      exact spelled_of_ofKind hd ih h
    · rw [Data.isOrderlyUnion] at hd
      · cases hd
      · simp
  | list ds ih =>
    refine ⟨fun _ t h => ?_, fun hd ts h => ?_⟩
    · rw [ofData] at h
      · cases h
      · simp
    · rw [Data.isOrderlyUnion, Data.areOrderlyTypes_iff] at hd
      rw [ofEnumerable] at h
      exact allSpelled_of_ofItems (fun d hmem => (ih d hmem).1 (hd d hmem)) h
  | _ =>
    refine ⟨fun _ t h => ?_, fun hd => ?_⟩
    · rw [ofData] at h
      · cases h
      · simp
    · rw [Data.isOrderlyUnion] at hd
      · cases hd
      · simp

/-! ### Reading in another order -/

section

variable (hrel : ∀ key, Option.Rel Data.Reordered (Data.get? ms key) (Data.get? ls key))
include hrel

/-- A member that is demanded is missing from both objects, or is the same up to order. -/
theorem concur_demand (kind key : String) :
    Concur (fun d' d => (key, d) ∈ ms ∧ Data.Reordered d d') (demand kind key ls)
      (demand kind key ms) := by
  unfold demand
  have hkey := hrel key
  cases hd : Data.get? ms key with
  | none =>
    rw [hd] at hkey
    generalize Data.get? ls key = d'? at hkey
    cases hkey
    exact Concur.malformed _ _
  | some d =>
    rw [hd] at hkey
    generalize Data.get? ls key = d'? at hkey
    cases hkey with
    | some h => exact .ok ⟨Data.mem_of_get? hd, h⟩

/-- A text at a name is the same text in another order. -/
theorem textMember?_eq (key : String) : textMember? ls key = textMember? ms key := by
  unfold textMember?
  have hkey := hrel key
  generalize Data.get? ms key = d? at hkey
  generalize Data.get? ls key = e? at hkey
  cases hkey with
  | none => rfl
  | @some d e h => cases h <;> rfl

/-- A mark counts as true in any order. -/
theorem truthy_getD (key : String) (d : Data) :
    ((Data.get? ls key).getD d).truthy = ((Data.get? ms key).getD d).truthy := by
  have hkey := hrel key
  generalize Data.get? ms key = d? at hkey
  generalize Data.get? ls key = e? at hkey
  cases hkey with
  | none => rfl
  | some h => exact h.truthy_eq

/-- A text or null at a name is the same in another order. -/
theorem getD_null_eq {key : String}
    (h : ∀ d, Data.get? ms key = some d → d = .null ∨ ∃ s, d = .text s) :
    (Data.get? ls key).getD .null = (Data.get? ms key).getD .null := by
  have hkey := hrel key
  generalize Data.get? ms key = d? at hkey h
  generalize Data.get? ls key = e? at hkey
  cases hkey with
  | none => rfl
  | some hde =>
    rcases h _ rfl with rfl | ⟨s, rfl⟩
    · rw [hde.null_iff.2 rfl]
    · rw [hde.of_text]

/-- The type that orderly members describe is the same in another order, if that holds of the types
among them. -/
theorem concur_ofKind {kind? : Option String} (hd : Data.isOrderlyTypeObject kind? ms = true)
    (hms : ∀ m ∈ ms, ∀ e, m.2.Reordered e →
      (m.2.isOrderlyType = true → Concur Eq (ofData e) (ofData m.2)) ∧
      (m.2.isOrderlyUnion = true → Concur Eq (ofEnumerable e) (ofEnumerable m.2))) :
    Concur Eq (ofKind ls kind?) (ofKind ms kind?) := by
  have hfits {key : String} {d : Data} (hmem : (key, d) ∈ ms) := Data.fitsRole_of_mem hd hmem
  unfold ofKind
  split
  · refine (concur_demand hrel "primitive" "name").bind fun name' name h => ?_
    obtain ⟨s, rfl⟩ := hfits h.1
    rw [h.2.of_text]
    exact .ok rfl
  · refine (concur_demand hrel "named" "name").bind fun name' name h => ?_
    obtain ⟨s, rfl⟩ := hfits h.1
    have halias : ∀ d, Data.get? ms "alias" = some d → d = .null ∨ ∃ s, d = .text s :=
      fun d hd => hfits (Data.mem_of_get? hd)
    rw [h.2.of_text, truthy_getD hrel, getD_null_eq hrel halias]
    exact .ok rfl
  · refine (concur_demand hrel "array" "element").bind fun d' d h => ?_
    refine ((hms _ h.1 _ h.2).1 (hfits h.1)).bind fun t' t ht => ?_
    rw [ht]
    exact .ok rfl
  · refine (concur_demand hrel "map" "element").bind fun d' d h => ?_
    refine ((hms _ h.1 _ h.2).1 (hfits h.1)).bind fun t' t ht => ?_
    rw [ht]
    exact .ok rfl
  · refine (concur_demand hrel "union" "members").bind fun d' d h => ?_
    refine ((hms _ h.1 _ h.2).2 (hfits h.1)).bind fun ts' ts hts => ?_
    rw [hts]
    unfold unionOf
    split
    · exact Concur.malformed _ _
    · exact .ok rfl
  · exact Concur.malformed _ _

end

/-- Items that differ in order only inside are read as the same types. -/
theorem concur_ofItems {ds es : List Data} (h : List.Forall₂ Data.Reordered ds es)
    (hds : ∀ d ∈ ds, ∀ e, d.Reordered e → Concur Eq (ofData e) (ofData d)) :
    Concur Eq (ofItems es) (ofItems ds) := by
  induction h with
  | nil =>
    rw [ofItems]
    exact .ok rfl
  | cons hde _ ih =>
    rw [List.forall_mem_cons] at hds
    rw [ofItems, ofItems]
    refine (hds.1 _ hde).bind fun t' t ht => ?_
    refine (ih hds.2).bind fun ts' ts hts => ?_
    rw [ht, hts]
    exact .ok rfl

/-- Orderly data that differ in the order of members are read as the same type, or describe none. -/
theorem concur_ofData (d : Data) (hd : d.hasDistinctNames = true) : ∀ e, d.Reordered e →
    (d.isOrderlyType = true → Concur Eq (ofData e) (ofData d)) ∧
      (d.isOrderlyUnion = true → Concur Eq (ofEnumerable e) (ofEnumerable d)) := by
  induction d using Data.induct with
  | object ms ih =>
    intro e h
    rw [Data.hasDistinctNames_object] at hd
    obtain ⟨ls, rfl, -, hrel⟩ := h.of_object hd.1
    refine ⟨fun horderly => ?_, fun horderly => ?_⟩
    · rw [Data.isOrderlyType] at horderly
      rw [ofData_object, ofData_object, textMember?_eq hrel]
      exact concur_ofKind hrel horderly fun m hm => ih m hm (hd.2 m hm)
    · rw [Data.isOrderlyUnion] at horderly
      · cases horderly
      · simp
  | list ds ih =>
    intro e h
    rw [Data.hasDistinctNames_list] at hd
    obtain ⟨es, rfl, hes⟩ := h.of_list
    refine ⟨fun _ => ?_, fun horderly => ?_⟩
    · rw [ofData, ofData]
      · exact Concur.malformed _ _
      all_goals simp
    · rw [Data.isOrderlyUnion, Data.areOrderlyTypes_iff] at horderly
      rw [ofEnumerable, ofEnumerable]
      exact concur_ofItems hes fun d hmem e hde =>
        (ih d hmem (hd d hmem) e hde).1 (horderly d hmem)
  | _ =>
    rintro e ⟨⟩
    refine ⟨fun _ => ?_, fun horderly => ?_⟩
    · rw [ofData]
      · exact Concur.malformed _ _
      · simp
    · rw [Data.isOrderlyUnion] at horderly
      · cases horderly
      · simp

end Ty

end CodeSample

import CodeSample.Data.Basic
import Mathlib.Data.List.Forall2
import Mathlib.Data.List.Nodup
import Mathlib.Data.Option.Basic

/-!
# Data up to the order of members

The members of an object stand in some order, but what they say does not depend on it: a name stands
for one member wherever it is.

* `Data.hasDistinctNames` says that no object at any depth has two members with one name;
* `Data.Reordered` relates data that differ in the order of members only, at any depth;
* `Reordered.of_object`: then the members with a name are again related, and `truthy_eq`: the data
  count as true together.
-/

namespace CodeSample.Data

/-! ### Induction -/

/-- What holds of a datum as soon as it holds of its items or of its members holds of all data. -/
@[elab_as_elim]
theorem induct {motive : Data → Prop} (null : motive .null) (bool : ∀ b, motive (.bool b))
    (int : ∀ n, motive (.int n)) (float : ∀ x, motive (.float x)) (text : ∀ s, motive (.text s))
    (list : ∀ ds, (∀ d ∈ ds, motive d) → motive (.list ds))
    (object : ∀ ms, (∀ m ∈ ms, motive m.2) → motive (.object ms)) (d : Data) : motive d := by
  refine @Data.rec motive (fun ds => ∀ d ∈ ds, motive d) (fun ms => ∀ m ∈ ms, motive m.2)
    (fun m => motive m.2) null bool int float text list object ?_ ?_ ?_ ?_ ?_ d
  · simp
  · exact fun d ds hd hds => List.forall_mem_cons.2 ⟨hd, hds⟩
  · simp
  · exact fun m ms hm hms => List.forall_mem_cons.2 ⟨hm, hms⟩
  · exact fun _ _ hd => hd

/-! ### Distinct names -/

mutual

/-- Whether in every object of a datum the names of the members are distinct. -/
def hasDistinctNames : Data → Bool
  | object ms => decide (ms.map Prod.fst).Nodup && membersHaveDistinctNames ms
  | list ds => itemsHaveDistinctNames ds
  | _ => true

/-- Whether it is so in all of several data. -/
def itemsHaveDistinctNames : List Data → Bool
  | [] => true
  | d :: ds => hasDistinctNames d && itemsHaveDistinctNames ds

/-- Whether it is so in all of several members. -/
def membersHaveDistinctNames : List (String × Data) → Bool
  | [] => true
  | (_, d) :: ms => hasDistinctNames d && membersHaveDistinctNames ms

end

/-- The names in a list of data are distinct if they are in each datum. -/
theorem hasDistinctNames_list {ds : List Data} :
    (list ds).hasDistinctNames = true ↔ ∀ d ∈ ds, d.hasDistinctNames = true := by
  rw [hasDistinctNames]
  induction ds with
  | nil => simp [itemsHaveDistinctNames]
  | cons d ds ih => simp [itemsHaveDistinctNames, ih]

/-- The names in an object are distinct if those of its members are, and those in each member. -/
theorem hasDistinctNames_object {ms : List (String × Data)} :
    (object ms).hasDistinctNames = true ↔
      (ms.map Prod.fst).Nodup ∧ ∀ m ∈ ms, m.2.hasDistinctNames = true := by
  rw [hasDistinctNames, Bool.and_eq_true, decide_eq_true_eq]
  refine and_congr_right' ?_
  induction ms with
  | nil => simp [membersHaveDistinctNames]
  | cons m ms ih => rw [membersHaveDistinctNames, Bool.and_eq_true, ih, List.forall_mem_cons]

/-! ### Looking up -/

variable {ms ns : List (String × Data)} {key : String} {d e : Data}

/-- A member is the first one if it has the name, and else one of the others. -/
theorem get?_cons (k : String) (d : Data) (ms : List (String × Data)) (key : String) :
    get? ((k, d) :: ms) key = if key = k then some d else get? ms key := by
  unfold get?
  rw [List.lookup_cons]
  by_cases h : key = k
  · rw [beq_iff_eq.2 h, if_pos h]
  · rw [beq_eq_false_iff_ne.2 h, if_neg h]

/-- What is found among members is one of them. -/
theorem mem_of_get? (h : get? ms key = some d) : (key, d) ∈ ms := by
  obtain ⟨front, rest, rfl, -⟩ := List.lookup_eq_some_iff.1 h
  simp

/-- There is a member for a key exactly if the key is among the names. -/
theorem isSome_get? : (get? ms key).isSome = true ↔ key ∈ ms.map Prod.fst := by
  unfold get?
  rw [List.lookup_isSome_iff, List.mem_map]
  refine exists_congr fun m => and_congr_right' ?_
  rw [beq_iff_eq, eq_comm]

/-- Among members with distinct names each is found under its name. -/
theorem get?_of_mem (hms : (ms.map Prod.fst).Nodup) (h : (key, d) ∈ ms) :
    get? ms key = some d := by
  induction ms with
  | nil => cases h
  | cons m ms ih =>
    obtain ⟨k, x⟩ := m
    rw [List.map_cons, List.nodup_cons] at hms
    rw [get?_cons]
    rcases List.mem_cons.1 h with heq | hmem
    · obtain ⟨rfl, rfl⟩ := Prod.mk.inj heq
      rw [if_pos rfl]
    · have hne : key ≠ k := by
        rintro rfl
        exact hms.1 (List.mem_map.2 ⟨_, hmem, rfl⟩)
      rw [if_neg hne]
      exact ih hms.2 hmem

/-- What is found among members with distinct names does not depend on their order. -/
theorem get?_of_perm (hperm : ms.Perm ns) (hms : (ms.map Prod.fst).Nodup) (key : String) :
    get? ns key = get? ms key := by
  have hns : (ns.map Prod.fst).Nodup := (hperm.map Prod.fst).nodup_iff.1 hms
  apply Option.ext
  intro d
  constructor
  · intro h
    exact get?_of_mem hms (hperm.mem_iff.2 (mem_of_get? h))
  · intro h
    exact get?_of_mem hns (hperm.mem_iff.1 (mem_of_get? h))

/-- A member of one object has a related one of the same name in the other. -/
theorem exists_of_rel_get? {R : Data → Data → Prop}
    (hrel : Option.Rel R (get? ms key) (get? ns key)) (h : get? ms key = some d) :
    ∃ e, get? ns key = some e ∧ R d e := by
  rw [h] at hrel
  generalize get? ns key = e? at hrel
  cases hrel with
  | some hde => exact ⟨_, rfl, hde⟩

/-- The same the other way round. -/
theorem exists_of_rel_get?' {R : Data → Data → Prop}
    (hrel : Option.Rel R (get? ms key) (get? ns key)) (h : get? ns key = some e) :
    ∃ d, get? ms key = some d ∧ R d e := by
  rw [h] at hrel
  generalize get? ms key = d? at hrel
  cases hrel with
  | some hde => exact ⟨_, rfl, hde⟩

/-! ### Reordered data -/

/-- A datum with the members of its objects in another order, at any depth. -/
inductive Reordered : Data → Data → Prop where
  | refl (d : Data) : Reordered d d
  | list {ds es : List Data} (h : List.Forall₂ Reordered ds es) : Reordered (.list ds) (.list es)
  | object {ms ns ls : List (String × Data)} (hnames : ns.map Prod.fst = ms.map Prod.fst)
      (h : List.Forall₂ Reordered (ms.map Prod.snd) (ns.map Prod.snd)) (hperm : ns.Perm ls) :
      Reordered (.object ms) (.object ls)

namespace Reordered

/-- A text has only itself in another order. -/
theorem of_text {s : String} (h : Reordered (.text s) e) : e = .text s := by
  cases h
  rfl

/-- Null has only itself in another order. -/
theorem null_iff (h : Reordered d e) : e = .null ↔ d = .null := by
  constructor
  · rintro rfl
    cases h
    rfl
  · rintro rfl
    cases h
    rfl

/-- A whole number has only itself in another order. -/
theorem of_int {n : Int} (h : Reordered (.int n) e) : e = .int n := by
  cases h
  rfl

/-- Items are reordered by leaving them as they are. -/
theorem refl_items (ds : List Data) : List.Forall₂ Reordered ds ds :=
  List.forall₂_same.2 fun d _ => refl d

/-- What is a list in another order is a list of the items, in other orders inside. -/
theorem of_list {ds : List Data} (h : Reordered (.list ds) e) :
    ∃ es, e = .list es ∧ List.Forall₂ Reordered ds es := by
  cases h with
  | refl => exact ⟨ds, rfl, refl_items ds⟩
  | list h => exact ⟨_, rfl, h⟩

/-- The items of a pair that are whole numbers have no order to lose. -/
theorem of_int_pair {m n : Int} (h : Reordered (.list [.int m, .int n]) e) :
    e = .list [.int m, .int n] := by
  obtain ⟨es, rfl, hes⟩ := h.of_list
  obtain ⟨x, xs, hx, hxs, rfl⟩ := List.forall₂_cons_left_iff.1 hes
  obtain ⟨y, ys, hy, hys, rfl⟩ := List.forall₂_cons_left_iff.1 hxs
  rw [List.forall₂_nil_left_iff.1 hys, hx.of_int, hy.of_int]

/-- What is a pair in another order is a pair. -/
theorem exists_pair {x y : Data} (h : Reordered d (.list [x, y])) : ∃ a b, d = .list [a, b] := by
  cases h with
  | refl => exact ⟨x, y, rfl⟩
  | list h =>
    obtain ⟨a, as, -, has, rfl⟩ := List.forall₂_cons_right_iff.1 h
    obtain ⟨b, bs, -, hbs, rfl⟩ := List.forall₂_cons_right_iff.1 has
    exact ⟨a, b, by rw [List.forall₂_nil_right_iff.1 hbs]⟩

/-- Among members with the same names and related contents, the ones with a name are related. -/
theorem rel_get? (hnames : ns.map Prod.fst = ms.map Prod.fst)
    (h : List.Forall₂ Reordered (ms.map Prod.snd) (ns.map Prod.snd)) (key : String) :
    Option.Rel Reordered (get? ms key) (get? ns key) := by
  induction ms generalizing ns with
  | nil =>
    obtain rfl := List.map_eq_nil_iff.1 hnames
    exact .none
  | cons m ms ih =>
    obtain ⟨k, x⟩ := m
    cases ns with
    | nil => cases hnames
    | cons n ns =>
      obtain ⟨l, y⟩ := n
      obtain ⟨hkl, hrest⟩ := List.cons.inj hnames
      obtain ⟨hxy, hcontents⟩ := List.forall₂_cons.1 h
      obtain rfl : l = k := hkl
      rw [get?_cons, get?_cons]
      split
      · exact .some hxy
      · exact ih hrest hcontents

/-- An object in another order is an object with the same names, and under each name a datum that is
the same up to order. -/
theorem of_object (h : Reordered (.object ms) e) (hms : (ms.map Prod.fst).Nodup) :
    ∃ ls, e = .object ls ∧ (ls.map Prod.fst).Nodup ∧
      ∀ key, Option.Rel Reordered (get? ms key) (get? ls key) := by
  cases h with
  | refl => exact ⟨ms, rfl, hms, rel_get? rfl (refl_items _)⟩
  | @object ms ns ls hnames h hperm =>
    have hns : (ns.map Prod.fst).Nodup := by rwa [hnames]
    refine ⟨ls, rfl, (hperm.map Prod.fst).nodup_iff.1 hns, fun key => ?_⟩
    rw [get?_of_perm hperm hns]
    exact rel_get? hnames h key

/-- The order of members has no part in whether a datum counts as true. -/
theorem truthy_eq (h : Reordered d e) : e.truthy = d.truthy := by
  cases h with
  | refl => rfl
  | list h =>
    cases h with
    | nil => rfl
    | cons => rfl
  | @object ms ns ls hnames h hperm =>
    have hlength : ls.length = ms.length := by
      rw [← hperm.length_eq, ← List.length_map Prod.fst, hnames, List.length_map]
    rw [truthy, truthy]
    cases ls <;> cases ms <;> first | rfl | cases hlength

end Reordered

end CodeSample.Data

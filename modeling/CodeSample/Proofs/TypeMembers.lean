import CodeSample.Proofs.TypeNames
import CodeSample.Proofs.UnionMembers
import Mathlib.Data.List.Perm.Basic

/-!
# The one member of a type

What a backend writes for a type is written for one member of it: the type itself if it is no union,
and otherwise the leaf that is not absent, if there is exactly one such leaf. From there it goes on
with the elements of an array or a map.

* `key_of_spelled`, `same_iff`: types whose names are texts are the same only if they are equal;
* `mem_members`: no leaf of such a type is lost among its members;
* `concrete?_eq_some_iff_of_isUnion`: what `concrete?` answers of a union, by its members;
* `IsSole` and `IsUndecided` say of the leaves that there is one member, or that there is none or
  several; `concrete?_eq_some_iff`, `concrete?_eq_none_iff`: these are the two answers of
  `concrete?`;
* `LeadsTo` are the types that are met on the way from member to element, and `Within` are all types
  that stand in a type.
-/

namespace CodeSample.Ty

variable {t u : Ty}

/-! ### Types with texts as names -/

mutual

/-- Names that are texts are compared as they are. -/
theorem key_of_spelled (t : Ty) (h : t.Spelled) : t.key = t := by
  match t with
  | primitive name =>
    obtain ⟨s, rfl⟩ := by simpa only [Spelled] using h
    rw [key, Data.key_text]
  | named name aliasName struct =>
    simp only [Spelled] at h
    obtain ⟨⟨s, rfl⟩, rfl | ⟨u, rfl⟩⟩ := h
    · rw [key, Data.key_text, Data.key_null]
    · rw [key, Data.key_text, Data.key_text]
  | array t | map t =>
    simp only [Spelled] at h
    rw [key, key_of_spelled t h]
  | union ts =>
    simp only [Spelled] at h
    rw [key, keys_of_allSpelled ts h]
  | unspelled => rw [key]

/-- Types whose names are texts are their own keys. -/
theorem keys_of_allSpelled (ts : List Ty) (h : AllSpelled ts) : keys ts = ts := by
  match ts with
  | [] => rw [keys]
  | t :: ts =>
    simp only [AllSpelled] at h
    rw [keys, key_of_spelled t h.1, keys_of_allSpelled ts h.2]

end

/-- Types whose names are texts are the same only if they are equal. -/
theorem same_iff (ht : t.Spelled) (hu : u.Spelled) : same t u = true ↔ t = u := by
  rw [same, key_of_spelled t ht, key_of_spelled u hu, beq_iff_eq]

/-! ### The types within a type -/

/-- A type stands somewhere in another one. -/
inductive Within (u : Ty) : Ty → Prop where
  | here : Within u u
  | array {t : Ty} : Within u t → Within u (.array t)
  | map {t : Ty} : Within u t → Within u (.map t)
  | member {t : Ty} {ts : List Ty} : t ∈ ts → Within u t → Within u (.union ts)

/-- The names in one of some types are among the names in all. -/
theorem mem_namesOf {ts : List Ty} (ht : t ∈ ts) {d : Data} (hd : d ∈ t.names) :
    d ∈ namesOf ts := by
  induction ts with
  | nil => cases ht
  | cons v vs ih =>
    rw [namesOf, List.mem_append]
    rcases List.mem_cons.1 ht with rfl | ht
    · exact Or.inl hd
    · exact Or.inr (ih ht)

/-- What stands within a type stands within every type that the type stands in. -/
theorem Within.trans {v : Ty} (hu : u.Within t) (ht : t.Within v) : u.Within v := by
  induction ht with
  | here => exact hu
  | array _ ih => exact .array ih
  | map _ ih => exact .map ih
  | member hmem _ ih => exact .member hmem ih

/-- What stands in a type has no other names. -/
theorem names_of_within (h : u.Within t) : ∀ d ∈ u.names, d ∈ t.names := by
  induction h with
  | here => exact fun _ hd => hd
  | array _ ih | map _ ih => exact fun d hd => by simpa only [names] using ih d hd
  | member hmem _ ih =>
    intro d hd
    rw [names]
    exact mem_namesOf hmem (ih d hd)

/-- What stands within a type that has a spelling has one. -/
theorem spelled_of_within (h : u.Within t) (ht : t.Spelled) : u.Spelled :=
  (spelled_iff u).2 fun d hd => (spelled_iff t).1 ht d (names_of_within h d hd)

/-- The type of the elements of an array or a map. -/
def item? : Ty → Option Ty
  | array t => some t
  | map t => some t
  | _ => none

/-- The element type of an array or a map stands within it. -/
theorem within_of_item? {s : Ty} (h : s.item? = some t) : t.Within s := by
  cases s with
  | array _ =>
    cases h
    exact .array .here
  | map _ =>
    cases h
    exact .map .here
  | _ => cases h

/-- The element type of an array or a map is less deep. -/
theorem depth_lt_of_item? {s : Ty} (h : s.item? = some t) : t.depth < s.depth := by
  cases s with
  | array _ | map _ =>
    cases h
    rw [depth]
    exact Nat.lt_succ_self _
  | _ => cases h

/-- A leaf stands within the type that it is a leaf of. -/
theorem LeafOf.within (h : u.LeafOf t) : u.Within t := by
  induction h with
  | self => exact .here
  | member hmem _ ih => exact .member hmem ih

/-- What is listed as a leaf stands within the type. -/
theorem within_of_mem_leaves (t : Ty) (h : u ∈ t.leaves) : u.Within t :=
  ((mem_leaves_iff t).1 h).within

/-! ### Members -/

/-- No leaf is lost among the members of a type whose names are texts. -/
theorem mem_members (ht : t.Spelled) : u ∈ t.members ↔ u ∈ t.leaves := by
  have hspelled : ∀ v ∈ t.leaves, v.Spelled := fun v hv =>
    spelled_of_within (within_of_mem_leaves t hv) ht
  refine ⟨mem_leaves_of_mem_members t, fun hu => ?_⟩
  obtain ⟨v, hv, hsame⟩ := (lists_members t).complete u hu
  have hmem : v ∈ t.leaves := mem_leaves_of_mem_members t hv
  rwa [← (same_iff (hspelled v hmem) (hspelled u hu)).1 hsame]

/-! ### One member, or none or several -/

/-- The one member of a type that counts: the type itself if it is no union, and else the only leaf
that is not absent. -/
def IsSole (t u : Ty) : Prop :=
  (t.isUnion = false ∧ u = t) ∨
    (t.isUnion = true ∧ ∀ v, (v ∈ t.leaves ∧ v.isAbsent = false) ↔ v = u)

/-- A union all whose leaves are absent, or that has two different leaves which are not. -/
def IsUndecided (t : Ty) : Prop :=
  t.isUnion = true ∧
    ((∀ u ∈ t.leaves, u.isAbsent = true) ∨
      ∃ u ∈ t.leaves, ∃ v ∈ t.leaves, u.isAbsent = false ∧ v.isAbsent = false ∧ u ≠ v)

/-- A type is undecided exactly if it has no one member that counts. -/
theorem isUndecided_iff : t.IsUndecided ↔ ∀ u, ¬t.IsSole u := by
  unfold IsUndecided IsSole
  constructor
  · rintro ⟨hunion, hleaves⟩ u (⟨hnone, -⟩ | ⟨-, hu⟩)
    · rw [hunion] at hnone
      cases hnone
    rcases hleaves with habsent | ⟨v, hv, w, hw, hva, hwa, hne⟩
    · obtain ⟨hmem, hthere⟩ := (hu u).2 rfl
      rw [habsent u hmem] at hthere
      cases hthere
    · exact hne (((hu v).1 ⟨hv, hva⟩).trans ((hu w).1 ⟨hw, hwa⟩).symm)
  · intro h
    have hunion : t.isUnion = true := by
      by_contra hnone
      exact h t (Or.inl ⟨by simpa using hnone, rfl⟩)
    refine ⟨hunion, ?_⟩
    by_cases habsent : ∀ v ∈ t.leaves, v.isAbsent = true
    · exact Or.inl habsent
    push Not at habsent
    obtain ⟨v, hv, hva⟩ := habsent
    have hva : v.isAbsent = false := by simpa using hva
    -- as this leaf is not the only one, there is another
    by_contra hno
    refine h v (Or.inr ⟨hunion, fun w => ⟨fun hw => ?_, fun hw => hw ▸ ⟨hv, hva⟩⟩⟩)
    by_contra hne
    exact hno (Or.inr ⟨v, hv, w, hw.1, hva, hw.2, fun heq => hne heq.symm⟩)

/-- What counts of a union is the only one of its members that is not absent. -/
theorem concrete?_eq_some_iff_of_isUnion (hunion : t.isUnion = true) :
    t.concrete? = some u ↔ ∀ v, (v ∈ t.members ∧ v.isAbsent = false) ↔ v = u := by
  obtain ⟨ts, rfl⟩ : ∃ ts, t = union ts := by
    cases t <;> simp_all [isUnion]
  have hnodup : ((union ts).members.filter (!·.isAbsent)).Nodup := (nodup_members _).filter _
  have hsingle : (union ts).concrete? = some u ↔
      (union ts).members.filter (!·.isAbsent) = [u] := by
    refine ⟨concrete?_union_eq_some, fun h => ?_⟩
    rw [concrete?, h]
  rw [hsingle, ← List.perm_singleton, List.perm_ext_iff_of_nodup hnodup (by simp)]
  simp only [List.mem_filter, Bool.not_eq_true', List.mem_singleton]

/-- What counts of a type whose names are texts is what the leaves say. -/
theorem concrete?_eq_some_iff (ht : t.Spelled) : t.concrete? = some u ↔ t.IsSole u := by
  by_cases hunion : t.isUnion = true
  · rw [concrete?_eq_some_iff_of_isUnion hunion]
    simp only [mem_members ht, IsSole, hunion, Bool.true_eq_false, false_and, false_or, true_and]
  · have hunion : t.isUnion = false := by simpa using hunion
    rw [concrete?_of_not_union hunion]
    simp only [IsSole, hunion, Bool.false_eq_true, false_and, or_false, true_and,
      Option.some.injEq]
    exact eq_comm

/-- There is no member to go on with exactly if the type is undecided. -/
theorem concrete?_eq_none_iff (ht : t.Spelled) : t.concrete? = none ↔ t.IsUndecided := by
  rw [isUndecided_iff, Option.eq_none_iff_forall_ne_some]
  exact forall_congr' fun u => not_congr (concrete?_eq_some_iff ht)

/-- Every type is undecided or has one member that counts. -/
theorem isUndecided_or_isSole (t : Ty) : t.IsUndecided ∨ ∃ u, t.IsSole u := by
  by_contra hno
  rw [not_or] at hno
  exact hno.1 (isUndecided_iff.2 (not_exists.1 hno.2))

/-- The one member that counts is a leaf. -/
theorem IsSole.mem_leaves (h : t.IsSole u) : u ∈ t.leaves := by
  rcases h with ⟨hnone, rfl⟩ | ⟨-, hu⟩
  · exact (mem_leaves_iff u).2 (.self hnone)
  · exact ((hu u).2 rfl).1

/-- The one member that counts is no union. -/
theorem IsSole.isUnion (h : t.IsSole u) : u.isUnion = false :=
  ((mem_leaves_iff t).1 h.mem_leaves).isUnion

/-- The one member that counts stands within the type. -/
theorem IsSole.within (h : t.IsSole u) : u.Within t := within_of_mem_leaves t h.mem_leaves

/-! ### From member to element -/

/-- A type is met when a type is replaced by its one member that counts, and that by the type of its
elements if it is an array or a map, any number of times. -/
inductive LeadsTo : Ty → Ty → Prop where
  | here (t : Ty) : LeadsTo t t
  | item {t s e u : Ty} : t.IsSole s → s.item? = some e → LeadsTo e u → LeadsTo t u

/-- What a type leads to stands within it. -/
theorem LeadsTo.within (h : t.LeadsTo u) : u.Within t := by
  induction h with
  | here => exact .here
  | item hs he _ ih => exact ih.trans ((within_of_item? he).trans hs.within)

/-- What a type that has a spelling leads to has one. -/
theorem LeadsTo.spelled (h : t.LeadsTo u) (ht : t.Spelled) : u.Spelled :=
  spelled_of_within h.within ht

end CodeSample.Ty

import CodeSample.Ty.Depth

/-!
# The members of a union

The members of a union are gathered level by level: those of every nested union are found first,
and then put behind what was found before unless they are there already. Repetitions are dropped on
every level, and yet nothing is lost and nothing changes its place: what is gathered is what one
comes upon when the union is read from left to right, each type where it stands first.

* `LeafOf` says that a type is reached through unions only, and `mem_leaves_iff` that the leaves are
  these types;
* `Lists` says that some types list others: all of them, each once, in the order in which they come
  first;
* `Lists.gather`: what is gathered lists the one and the other, one after the other; from this
  `lists_members` follows along the nesting of unions;
* `members_flatten` is the statement on the members of every type.
-/

namespace CodeSample.Ty

variable {t u : Ty} {ms ns ls ks ts : List Ty}

/-! ### Leaves -/

/-- A type that is no union stands in another one, within unions only. -/
inductive LeafOf (u : Ty) : Ty → Prop where
  | self : u.isUnion = false → LeafOf u u
  | member {t : Ty} {ts : List Ty} : t ∈ ts → LeafOf u t → LeafOf u (.union ts)

/-- A leaf is no union. -/
theorem LeafOf.isUnion (h : u.LeafOf t) : u.isUnion = false := by
  induction h with
  | self h => exact h
  | member _ _ ih => exact ih

/-- A type that is no union is its own only leaf. -/
theorem leafOf_of_not_union (ht : t.isUnion = false) : u.LeafOf t ↔ u = t := by
  constructor
  · intro h
    cases h with
    | self => rfl
    | member => cases ht
  · rintro rfl
    exact .self ht

/-- The leaves of a union are those of its members. -/
theorem leafOf_union : u.LeafOf (.union ts) ↔ ∃ t ∈ ts, u.LeafOf t := by
  constructor
  · intro h
    cases h with
    | self h => cases h
    | member hmem h => exact ⟨_, hmem, h⟩
  · rintro ⟨t, hmem, h⟩
    exact .member hmem h

mutual

/-- The leaves of a type are the types that are reached through unions only. -/
theorem mem_leaves_iff (t : Ty) : u ∈ t.leaves ↔ u.LeafOf t := by
  match t with
  | union ts => rw [leaves, mem_leavesOf_iff ts, leafOf_union]
  | primitive _ | named .. | array _ | map _ | unspelled =>
    rw [leaves, List.mem_singleton, leafOf_of_not_union]
    · rfl
    · simp

/-- The leaves of some types are those of each. -/
theorem mem_leavesOf_iff (ts : List Ty) : u ∈ leavesOf ts ↔ ∃ t ∈ ts, u.LeafOf t := by
  match ts with
  | [] => simp [leavesOf]
  | t :: ts =>
    rw [leavesOf, List.mem_append, mem_leaves_iff t, mem_leavesOf_iff ts]
    simp

end

/-! ### Where a type comes first -/

/-- Which of two types comes first does not matter for whether they are the same. -/
theorem same_comm (t u : Ty) : same t u = same u t :=
  Bool.eq_iff_iff.2 ⟨same_symm, same_symm⟩

/-- Where a type, or one that is the same, comes first among others. -/
def firstIn (ts : List Ty) (u : Ty) : Nat := ts.findIdx (same u)

/-- Types that are the same come first at the same place. -/
theorem firstIn_of_same (h : same t u = true) (ts : List Ty) : firstIn ts t = firstIn ts u := by
  have hsame : same t = same u := by
    funext v
    rw [Bool.eq_iff_iff]
    exact ⟨same_trans (same_symm h), same_trans h⟩
  rw [firstIn, firstIn, hsame]

/-- A type that is among others comes first before their end. -/
theorem firstIn_lt_length (h : u ∈ ls) : firstIn ls u < ls.length :=
  List.findIdx_lt_length_of_exists ⟨u, h, same_refl u⟩

/-- What comes behind has no part in where a type comes first that is there before. -/
theorem firstIn_append_of_mem (h : u ∈ ls) (ks : List Ty) :
    firstIn (ls ++ ks) u = firstIn ls u := by
  have hlt := firstIn_lt_length h
  unfold firstIn at hlt ⊢
  rw [List.findIdx_append, if_pos hlt]

/-- A type that is new comes first among what is put behind. -/
theorem firstIn_append_of_new (h : ∀ v ∈ ls, same u v = false) (ks : List Ty) :
    firstIn (ls ++ ks) u = firstIn ks u + ls.length := by
  have hnone : ¬ls.findIdx (same u) < ls.length := by
    rw [List.findIdx_lt_length]
    rintro ⟨v, hv, hsame⟩
    rw [h v hv] at hsame
    cases hsame
  unfold firstIn
  rw [List.findIdx_append, if_neg hnone]

/-! ### Lists of what is there -/

/-- Some types list others: they are among them, none of these is missing, and they stand in the
order in which they come first. -/
structure Lists (ms ls : List Ty) : Prop where
  mem : ∀ u ∈ ms, u ∈ ls
  complete : ∀ u ∈ ls, ∃ v ∈ ms, same v u = true
  ordered : ms.Pairwise fun u v => firstIn ls u < firstIn ls v

/-- No types list no types. -/
theorem lists_nil : Lists [] [] := ⟨by simp, by simp, .nil⟩

/-- A type lists itself. -/
theorem lists_singleton (t : Ty) : Lists [t] [t] :=
  ⟨fun _ h => h, fun u h => ⟨u, h, same_refl u⟩, List.pairwise_singleton _ _⟩

/-- Nothing is listed twice. -/
theorem Lists.distinct (h : Lists ms ls) : ms.Pairwise fun u v => same u v = false := by
  refine h.ordered.imp fun {u v} hlt => Bool.eq_false_iff.2 fun hsame => ?_
  rw [firstIn_of_same hsame] at hlt
  exact Nat.lt_irrefl _ hlt

/-- What is gathered from types that are not the same is what was found and what is new. -/
theorem gather_eq (hns : ns.Pairwise fun u v => same u v = false) (found : List Ty) :
    gather found ns = found ++ ns.filter fun u => !found.any (same u) := by
  induction ns generalizing found with
  | nil => rw [gather, List.filter_nil, List.append_nil]
  | cons n ns ih =>
    rw [List.pairwise_cons] at hns
    rw [gather, List.filter_cons]
    by_cases hold : found.any (same n) = true
    · rw [if_pos hold, ih hns.2, hold, Bool.not_true, if_neg Bool.false_ne_true]
    · have hrest : ns.filter (fun u => !(found ++ [n]).any (same u)) =
          ns.filter fun u => !found.any (same u) := by
        refine List.filter_congr fun u hu => ?_
        have hother : same u n = false := (same_comm u n).trans (hns.1 u hu)
        simp [hother]
      rw [if_neg hold, ih hns.2, hrest, if_pos (by simpa using hold), List.append_assoc,
        List.singleton_append]

/-- What is gathered lists first what was listed before, and then what is new. -/
theorem Lists.gather (h : Lists ms ls) (h' : Lists ns ks) : Lists (gather ms ns) (ls ++ ks) := by
  rw [gather_eq h'.distinct]
  -- what is new among the ones is not the same as anything that the others list
  have hnew : ∀ u ∈ ns.filter (fun u => !ms.any (same u)), u ∈ ns ∧ ∀ v ∈ ls, same u v = false := by
    intro u hu
    obtain ⟨hmem, hnone⟩ := List.mem_filter.1 hu
    refine ⟨hmem, fun v hv => Bool.eq_false_iff.2 fun hsame => ?_⟩
    obtain ⟨w, hw, hsame'⟩ := h.complete v hv
    rw [List.any_eq_true.2 ⟨w, hw, same_trans hsame (same_symm hsame')⟩] at hnone
    cases hnone
  refine ⟨fun u hu => ?_, fun u hu => ?_, ?_⟩
  · rcases List.mem_append.1 hu with hu | hu
    · exact List.mem_append_left _ (h.mem u hu)
    · exact List.mem_append_right _ (h'.mem u (hnew u hu).1)
  · rcases List.mem_append.1 hu with hu | hu
    · obtain ⟨v, hv, hsame⟩ := h.complete u hu
      exact ⟨v, List.mem_append_left _ hv, hsame⟩
    · obtain ⟨v, hv, hsame⟩ := h'.complete u hu
      by_cases hold : ms.any (same v) = true
      · obtain ⟨w, hw, hsame'⟩ := List.any_eq_true.1 hold
        exact ⟨w, List.mem_append_left _ hw, same_trans (same_symm hsame') hsame⟩
      · refine ⟨v, List.mem_append_right _ (List.mem_filter.2 ⟨hv, ?_⟩), hsame⟩
        simpa using hold
  · refine List.pairwise_append.2 ⟨?_, ?_, fun u hu v hv => ?_⟩
    · refine h.ordered.imp_of_mem fun {u v} hu hv hlt => ?_
      rwa [firstIn_append_of_mem (h.mem u hu), firstIn_append_of_mem (h.mem v hv)]
    · refine (h'.ordered.filter _).imp_of_mem fun {u v} hu hv hlt => ?_
      rw [firstIn_append_of_new (hnew u hu).2, firstIn_append_of_new (hnew v hv).2]
      exact Nat.add_lt_add_right hlt _
    · rw [firstIn_append_of_mem (h.mem u hu), firstIn_append_of_new (hnew v hv).2]
      exact Nat.lt_add_left _ (firstIn_lt_length (h.mem u hu))

/-! ### Members -/

mutual

/-- The members of a type list its leaves. -/
theorem lists_members (t : Ty) : Lists t.members t.leaves := by
  match t with
  | union ts =>
    rw [members, leaves]
    simpa using lists_membersOf ts lists_nil
  | primitive _ | named .. | array _ | map _ | unspelled =>
    rw [members, leaves]
    · exact lists_singleton _
    · simp
    · simp

/-- What is gathered of some types behind others lists these and the leaves of those, by induction
along the types. -/
theorem lists_membersOf (ts : List Ty) {found before : List Ty} (h : Lists found before) :
    Lists (membersOf found ts) (before ++ leavesOf ts) := by
  match ts with
  | [] =>
    rw [membersOf, leavesOf, List.append_nil]
    exact h
  | t :: ts =>
    rw [membersOf, leavesOf, ← List.append_assoc]
    exact lists_membersOf ts (h.gather (lists_members t))

end

/-- No member of a type is there twice. -/
theorem nodup_members (t : Ty) : t.members.Nodup := by
  refine (lists_members t).distinct.imp ?_
  rintro u _ hother rfl
  rw [same_refl] at hother
  cases hother

/-- The members of a type are no unions and no two of them are the same. They are the types that are
reached through unions only, without any of these missing, and they stand in the order in which
these come first when the type is read from left to right. -/
theorem members_flatten (t : Ty) :
    (∀ u ∈ t.members, u.isUnion = false) ∧
    (t.members.Pairwise fun u v => same u v = false) ∧
    (∀ u ∈ t.members, u.LeafOf t) ∧
    (∀ u, u.LeafOf t → ∃ v ∈ t.members, same v u = true) ∧
    t.members.Pairwise fun u v => firstIn t.leaves u < firstIn t.leaves v := by
  have hlists := lists_members t
  have hleaf : ∀ u ∈ t.members, u.LeafOf t := fun u hu => (mem_leaves_iff t).1 (hlists.mem u hu)
  exact ⟨fun u hu => (hleaf u hu).isUnion, hlists.distinct, hleaf,
    fun u hu => hlists.complete u ((mem_leaves_iff t).2 hu), hlists.ordered⟩

example : (union [null, optional null, optional (array (optional null))]).members =
    [null, undefined, array (optional null)] := by decide

end CodeSample.Ty

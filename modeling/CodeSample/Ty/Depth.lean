import CodeSample.Ty.Basic

/-!
# Depth of types

How many arrays and maps stand in one another. The elements of the concrete member of a type are
less deep than the type, so a type can be followed from element to element.

* `depth` is the depth;
* `depth_le_of_mem_leaves`, `depth_le_of_concrete?`: leaves and the concrete member are not deeper.
-/

namespace CodeSample.Ty

mutual

/-- How many arrays and maps stand in one another. -/
def depth : Ty → Nat
  | array t => depth t + 1
  | map t => depth t + 1
  | union ts => depthOf ts
  | _ => 0

/-- The greatest depth of several types. -/
def depthOf : List Ty → Nat
  | [] => 0
  | t :: ts => max (depth t) (depthOf ts)

end

mutual

/-- A leaf is no deeper than its type. -/
theorem depth_le_of_mem_leaves (t : Ty) {u : Ty} (h : u ∈ t.leaves) : u.depth ≤ t.depth := by
  match t with
  | union ts =>
    rw [leaves] at h
    rw [depth]
    exact depth_le_of_mem_leavesOf ts h
  | primitive _ | named .. | array _ | map _ | unspelled =>
    rw [leaves] at h
    · exact Nat.le_of_eq (congrArg depth (List.mem_singleton.1 h))
    · simp

/-- A leaf of some types is no deeper than the deepest of them. -/
theorem depth_le_of_mem_leavesOf (ts : List Ty) {u : Ty} (h : u ∈ leavesOf ts) :
    u.depth ≤ depthOf ts := by
  match ts with
  | [] => simp [leavesOf] at h
  | t :: ts =>
    rw [leavesOf, List.mem_append] at h
    rw [depthOf]
    rcases h with h | h
    · exact Nat.le_trans (depth_le_of_mem_leaves t h) (Nat.le_max_left ..)
    · exact Nat.le_trans (depth_le_of_mem_leavesOf ts h) (Nat.le_max_right ..)

end

/-- What is gathered is found already or among what is new. -/
theorem mem_gather {found ts : List Ty} {u : Ty} (h : u ∈ gather found ts) :
    u ∈ found ∨ u ∈ ts := by
  induction ts generalizing found with
  | nil => exact Or.inl h
  | cons t ts ih =>
    rw [gather] at h
    rcases ih h with hfound | hrest
    · split at hfound
      · exact Or.inl hfound
      · rcases List.mem_append.1 hfound with hfound | hnew
        · exact Or.inl hfound
        · exact Or.inr (List.mem_singleton.1 hnew ▸ List.mem_cons_self)
    · exact Or.inr (List.mem_cons_of_mem _ hrest)

mutual

/-- A member of a type is one of its leaves. -/
theorem mem_leaves_of_mem_members (t : Ty) {u : Ty} (h : u ∈ t.members) : u ∈ t.leaves := by
  match t with
  | union ts =>
    rw [members] at h
    rw [leaves]
    exact (mem_membersOf ts h).resolve_left (by simp)
  | primitive _ | named .. | array _ | map _ | unspelled =>
    rw [members] at h
    · rwa [leaves]
      simp
    · simp

/-- A member that is gathered of some types is found already or a leaf of one of them. -/
theorem mem_membersOf (ts : List Ty) {found : List Ty} {u : Ty} (h : u ∈ membersOf found ts) :
    u ∈ found ∨ u ∈ leavesOf ts := by
  match ts with
  | [] =>
    rw [membersOf] at h
    exact Or.inl h
  | t :: ts =>
    rw [membersOf] at h
    rw [leavesOf, List.mem_append]
    rcases mem_membersOf ts h with hfound | hrest
    · rcases mem_gather hfound with hfound | ht
      · exact Or.inl hfound
      · exact Or.inr (Or.inl (mem_leaves_of_mem_members t ht))
    · exact Or.inr (Or.inr hrest)

end

/-- A type that is no union is its own single member. -/
theorem members_of_not_union {t : Ty} (h : t.isUnion = false) : t.members = [t] := by
  cases t <;> simp_all [isUnion, members]

/-- A type that is no union stands for itself. -/
theorem concrete?_of_not_union {t : Ty} (h : t.isUnion = false) : t.concrete? = some t := by
  cases t <;> simp_all [isUnion, concrete?]

/-- The member that a union stands for is the only one that is not absent. -/
theorem concrete?_union_eq_some {ts : List Ty} {u : Ty} (h : (union ts).concrete? = some u) :
    (union ts).members.filter (!·.isAbsent) = [u] := by
  rw [concrete?] at h
  split at h
  · rename_i v hv
    rw [hv, Option.some.inj h]
  · simp at h

/-- What a type stands for is no deeper than the type. -/
theorem depth_le_of_concrete? {t u : Ty} (h : t.concrete? = some u) : u.depth ≤ t.depth := by
  cases t with
  | union ts =>
    have hu : u ∈ (union ts).members.filter (!·.isAbsent) := by
      rw [concrete?_union_eq_some h]
      simp
    exact depth_le_of_mem_leaves _ (mem_leaves_of_mem_members _ (List.mem_filter.1 hu).1)
  | _ =>
    rw [concrete?_of_not_union rfl] at h
    exact Nat.le_of_eq (congrArg depth (Option.some.inj h).symm)

/-- The element type of the array that a type stands for is less deep than the type. -/
theorem depth_lt_of_concrete?_array {t e : Ty} (h : t.concrete? = some (array e)) :
    e.depth < t.depth := by
  have := depth_le_of_concrete? h
  rw [depth] at this
  omega

/-- The element type of the map that a type stands for is less deep than the type. -/
theorem depth_lt_of_concrete?_map {t e : Ty} (h : t.concrete? = some (map e)) :
    e.depth < t.depth := by
  have := depth_le_of_concrete? h
  rw [depth] at this
  omega

end CodeSample.Ty

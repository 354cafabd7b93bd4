import CodeSample.Ty.Depth
import CodeSample.Ty.Describe

/-!
# The names in a type

What a type is spelled with: the names of builtin and user-declared types, and the aliases of the
latter. The names of the types that a backend reaches from a type are among its own.

* `Ty.names` are the names;
* `Ty.spelled_iff`: that a type is spelled says that all its names are texts;
* `names_of_mem_leaves`, `names_of_concrete?`: the leaves of a type and its one concrete member have
  no other names, and so have the elements of that member.
-/

namespace CodeSample.Ty

mutual

/-- The names in a type, and its aliases other than null. -/
def names : Ty → List Data
  | primitive name => [name]
  | named name aliasName _ => name :: (if aliasName = .null then [] else [aliasName])
  | array t => names t
  | map t => names t
  | union ts => namesOf ts
  | unspelled => []

/-- The names in several types. -/
def namesOf : List Ty → List Data
  | [] => []
  | t :: ts => names t ++ namesOf ts

end

/-- A datum is found to be a text when it is one. -/
theorem isText_iff {d : Data} : d.isText = true ↔ ∃ s, d = .text s := by
  cases d <;> simp [Data.isText]

mutual

/-- A type is spelled when all its names are texts. -/
theorem spelled_iff (t : Ty) : t.Spelled ↔ ∀ d ∈ t.names, d.isText = true := by
  match t with
  | primitive name => simp [Spelled, names, isText_iff]
  | named name aliasName struct =>
    by_cases h : aliasName = .null <;> simp [Spelled, names, isText_iff, h]
  | array t | map t =>
    simp only [Spelled, names]
    exact spelled_iff t
  | union ts =>
    simp only [Spelled, names]
    exact allSpelled_iff ts
  | unspelled => simp [Spelled, names]

/-- So it is for several types. -/
theorem allSpelled_iff (ts : List Ty) : AllSpelled ts ↔ ∀ d ∈ namesOf ts, d.isText = true := by
  match ts with
  | [] => simp [AllSpelled, namesOf]
  | t :: ts =>
    simp only [AllSpelled, namesOf, List.mem_append, or_imp, forall_and]
    rw [spelled_iff t, allSpelled_iff ts]

end

/-! ### The names of what is reached from a type -/

mutual

/-- A leaf of a type has no names but those of the type. -/
theorem names_of_mem_leaves (t : Ty) {u : Ty} (h : u ∈ t.leaves) : ∀ d ∈ u.names, d ∈ t.names := by
  match t with
  | union ts =>
    rw [leaves] at h
    rw [names]
    exact names_of_mem_leavesOf ts h
  | primitive _ | named .. | array _ | map _ | unspelled =>
    rw [leaves] at h
    · obtain rfl := List.mem_singleton.1 h
      exact fun d hd => hd
    · simp

/-- Nor have the leaves of several types. -/
theorem names_of_mem_leavesOf (ts : List Ty) {u : Ty} (h : u ∈ leavesOf ts) :
    ∀ d ∈ u.names, d ∈ namesOf ts := by
  match ts with
  | [] => simp [leavesOf] at h
  | t :: ts =>
    intro d hd
    rw [leavesOf, List.mem_append] at h
    rw [namesOf, List.mem_append]
    rcases h with h | h
    · exact Or.inl (names_of_mem_leaves t h d hd)
    · exact Or.inr (names_of_mem_leavesOf ts h d hd)

end

/-- The one concrete member of a type has no other names. -/
theorem names_of_concrete? {t u : Ty} (h : t.concrete? = some u) : ∀ d ∈ u.names, d ∈ t.names := by
  cases t with
  | union ts =>
    have hu : u ∈ (union ts).members.filter (!·.isAbsent) := by
      rw [concrete?_union_eq_some h]
      simp
    exact names_of_mem_leaves _ (mem_leaves_of_mem_members _ (List.mem_filter.1 hu).1)
  | _ =>
    rw [concrete?_of_not_union rfl] at h
    obtain rfl := Option.some.inj h
    exact fun d hd => hd

end CodeSample.Ty

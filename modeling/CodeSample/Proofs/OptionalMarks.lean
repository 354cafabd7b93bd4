import CodeSample.Proofs.SameMembers
import Mathlib.Logic.Function.Iterate

/-!
# The mark of a nullable type

A type that admits that there is no value is spelled as its one member that counts with one mark
behind it, and so is a type whose place asks for the mark. However often a type admits it, and even
if its place asks for it as well, there is one mark and never two: a mark is put behind a text that
has none at its end.

* `members_optional`: what members a type gets when it becomes optional;
  `sameMembers_optional_iterate`: doing so again adds nothing;
* `Unmarked` says that a type has a name in C#, and that no mark is a part of it;
  `exists_memberType`: the text of such a type does not end with a mark;
* `renderType_marks` is the statement on the marks of a type.
-/

namespace CodeSample

/-! ### Optional types -/

namespace Ty

/-- The members of an optional type: one more than before, unless the type was optional. -/
theorem members_optional (t : Ty) : t.optional.members =
    if t.members.any (same undefined) then t.members else t.members ++ [undefined] := by
  have hgathered : gather [] t.members = t.members := by
    rw [gather_eq (lists_members t).distinct, List.nil_append]
    exact List.filter_eq_self.2 fun _ _ => rfl
  have hundefined : undefined.members = [undefined] := by decide
  rw [optional, members, membersOf, membersOf, membersOf, hgathered, hundefined, gather, gather]

/-- An optional type has `undefined` among its members. -/
theorem undefined_mem_members_optional (t : Ty) :
    ∃ u ∈ t.optional.members, same undefined u = true := by
  rw [members_optional]
  split
  · rename_i hold
    exact List.any_eq_true.1 hold
  · exact ⟨undefined, by simp, same_refl _⟩

/-- A type that is optional gets no other members. -/
theorem members_optional_iterate (t : Ty) (k : Nat) :
    (optional^[k + 1] t).members = t.optional.members := by
  induction k with
  | zero => rfl
  | succ k ih =>
    rw [Function.iterate_succ_apply', members_optional, ih,
      if_pos (List.any_eq_true.2 (undefined_mem_members_optional t))]

/-- A type that is made optional several times has the members of the optional type. -/
theorem sameMembers_optional_iterate (t : Ty) (k : Nat) :
    (optional^[k + 1] t).SameMembers t.optional where
  left := by
    rw [Function.iterate_succ_apply']
    rfl
  right := rfl
  mem u := by rw [members_optional_iterate]

end Ty

namespace CSharp

variable {n : Node} {t u : Ty} {w : String}

/-! ### One mark -/

/-- A text without a mark at its end gets one mark. -/
theorem markedIf_unmarked (hw : w.toList.getLast? ≠ some '?') (nullable : Bool) :
    markedIf nullable (.text w) = .ok (.text (w ++ if nullable then "?" else "")) := by
  cases nullable with
  | false => simp [markedIf]
  | true =>
    show Except.ok (Value.text (withOptionalMarker w)) = _
    rw [withOptionalMarker, if_neg hw]
    rfl

/-- And not two of them. -/
theorem not_two_marks (hw : w.toList.getLast? ≠ some '?') (nullable : Bool) :
    ¬['?', '?'] <:+ (w ++ if nullable then "?" else "").toList := by
  have hlast (cs : List Char) (h : cs ++ ['?'] <:+ w.toList) : False := by
    obtain ⟨front, hfront⟩ := h
    rw [← hfront] at hw
    simp at hw
  cases nullable with
  | false =>
    intro h
    refine hlast ['?'] ?_
    simpa using h
  | true =>
    intro h
    refine hlast [] ?_
    obtain ⟨front, hfront⟩ := h
    refine ⟨front, ?_⟩
    have hsplit : (front ++ ['?']) ++ ['?'] = w.toList ++ ['?'] := by
      simpa using hfront
    simpa using List.append_cancel_right hsplit

/-! ### Texts without a mark -/

/-- A type has a name in C#, if it is written by one, and no mark is a part of it. -/
structure Unmarked (u : Ty) : Prop where
  known : ¬LacksName u
  free : ∀ name aliasName struct, u = .named name aliasName struct →
    ∀ s, name = .text s ∨ aliasName = .text s → '?' ∉ s.toList

/-- A text ends as what stands at its end does. -/
theorem getLast?_append {p : String} {c : Char} (hp : p.toList.getLast? = some c) (s : String) :
    (s ++ p).toList.getLast? = some c := by
  rw [String.toList_append, List.getLast?_append, hp, Option.some_or]

/-- No builtin type has a mark in its name. -/
theorem not_marked_builtinTypes : ∀ w ∈ builtinTypes.map Prod.snd, '?' ∉ w.toList := by
  decide +kernel

/-- The name of an unmarked type, when it is no union and no array, does not end in a mark. -/
theorem not_marked_typeName (hu : Unmarked u) (hspelled : u.Spelled) (hunion : u.isUnion = false)
    (hitem : u.item? = none) :
    ∃ w, typeName u = .ok (.text w) ∧ w.toList.getLast? ≠ some '?' := by
  obtain ⟨w, hw, hcases⟩ := exists_typeName hspelled hunion hitem
  refine ⟨w, hw, fun hlast => ?_⟩
  have hmem : '?' ∈ w.toList := List.mem_of_getLast? hlast
  rcases hcases with ⟨hlacks, -⟩ | ⟨-, hbuiltin | ⟨name, aliasName, struct, hnamed, hname⟩⟩
  · exact hu.known hlacks
  · exact not_marked_builtinTypes w hbuiltin hmem
  · exact hu.free name aliasName struct hnamed w hname hmem

/-- What is written for the one member that counts does not end with a mark, whatever marks there
are within it. -/
theorem exists_memberType (hu : Unmarked u) (hspelled : u.Spelled) (hunion : u.isUnion = false)
    (n : Node) : ∃ reports w, memberType n.toValue u = ⟨reports, .ok (.text w)⟩ ∧
      w.toList.getLast? ≠ some '?' := by
  have helement {e : Ty} (he : u.item? = some e) :
      ∃ reports x, renderType n.toValue e false = ⟨reports, .ok (.text x)⟩ := by
    rcases exists_renderType (Ty.spelled_of_within (Ty.within_of_item? he) hspelled) n false with
      ⟨_, x, _, _, hx, _⟩ | ⟨_, _, _, x, _, _, _, _, hx, _⟩
    · exact ⟨_, x, hx⟩
    · exact ⟨_, x, hx⟩
  cases hitem : u.item? with
  | none =>
    obtain ⟨w, hw, hlast⟩ := not_marked_typeName hu hspelled hunion hitem
    exact ⟨[], w, memberType_of_item? hitem hw, hlast⟩
  | some e =>
    obtain ⟨reports, x, hx⟩ := helement hitem
    cases u with
    | map _ =>
      cases hitem
      refine ⟨reports, _, memberType_map hx, ?_⟩
      rw [getLast?_append (c := '>') (by decide)]
      decide
    | array _ =>
      cases hitem
      refine ⟨reports, _, memberType_array hx, ?_⟩
      rw [getLast?_append (c := ']') (by decide)]
      decide
    | _ => cases hitem

/-! ### The marks of a type -/

/-- A type is spelled as its one member that counts, followed by a mark if it, or its place, asks
for one. -/
theorem exists_renderType_marked (ht : t.Spelled) (hleaves : ∀ u ∈ t.leaves, Unmarked u)
    (hu : t.IsSole u) (n : Node) : ∃ reports w,
      memberType n.toValue u = ⟨reports, .ok (.text w)⟩ ∧ w.toList.getLast? ≠ some '?' ∧
      ∀ nullable, renderType n.toValue t nullable =
        ⟨reports, .ok (.text (w ++ if t.admitsAbsent || nullable then "?" else ""))⟩ := by
  obtain ⟨reports, w, hw, hlast⟩ := exists_memberType (hleaves u hu.mem_leaves)
    (Ty.spelled_of_within hu.within ht) hu.isUnion n
  refine ⟨reports, w, hw, hlast, fun nullable => ?_⟩
  rw [renderType_of_isSole ht hu, hw, Run.bind_ok, markedIf_unmarked hlast]
  simp [liftM, monadLift, MonadLift.monadLift, Run.ofExcept]

/-- A type whose names are free of marks is spelled as its one member that counts, if that is not
absent. It is followed by one mark if a member of the type is absent or the place asks for the mark,
and by nothing otherwise, and there are never two marks at the end. A type that is made optional
once more, any number of times, is spelled as before. -/
theorem renderType_marks (n : Node) (t : Ty) (nullable : Bool) :
    (t.Spelled → (∀ u ∈ t.leaves, Unmarked u) →
      (∀ c, t.IsSole c → c.isAbsent = false → ∃ reports s,
        renderType n.toValue c false = ⟨reports, .ok (.text s)⟩ ∧
        renderType n.toValue t nullable =
          ⟨reports, .ok (.text (s ++ if t.members.any Ty.isAbsent || nullable then "?" else ""))⟩) ∧
      ∃ reports s, renderType n.toValue t nullable = ⟨reports, .ok (.text s)⟩ ∧
        ¬['?', '?'] <:+ s.toList) ∧
    ∀ k, (renderType n.toValue (Ty.optional^[k + 1] t) nullable).outcome =
      (renderType n.toValue t.optional nullable).outcome := by
  refine ⟨fun ht hleaves => ⟨fun c hc habsent => ?_, ?_⟩, fun k => ?_⟩
  · obtain ⟨reports, w, hmember, -, hmarked⟩ := exists_renderType_marked ht hleaves hc n
    refine ⟨reports, w, ?_, hmarked nullable⟩
    have hconcrete := Ty.concrete?_of_not_union hc.isUnion
    have hnone : c.admitsAbsent = false := by
      rw [Ty.admitsAbsent, Ty.members_of_not_union hc.isUnion]
      simpa using habsent
    rw [renderType_of_concrete? hconcrete, hmember, hnone]
    simp [markedIf, liftM, monadLift, MonadLift.monadLift, Run.ofExcept]
  · rcases t.isUndecided_or_isSole with hundecided | ⟨u, hu⟩
    · exact ⟨_, _, renderType_of_isUndecided ht hundecided n nullable, by decide⟩
    · obtain ⟨reports, w, -, hlast, hmarked⟩ := exists_renderType_marked ht hleaves hu n
      exact ⟨reports, _, hmarked nullable, not_two_marks hlast _⟩
  · exact (renderType_of_sameMembers (Ty.sameMembers_optional_iterate t k) _ nullable).1

/-- Lists of readings, some of which are missing. -/
def readings : Ty := .array (.optional (.primitive (.text "number")))

/-- Such a list, or none at all. -/
def anyReadings : Ty := .union [readings, .null]

/-- No type in the list of readings has a mark in its name. -/
theorem unmarked_anyReadings : ∀ u ∈ anyReadings.leaves, Unmarked u := by
  have hleaves : anyReadings.leaves = [readings, .null] := by decide
  rw [hleaves, List.forall_mem_cons, List.forall_mem_singleton]
  refine ⟨⟨?_, fun _ _ _ h => by cases h⟩, ⟨?_, fun _ _ _ h => by cases h⟩⟩
  · rintro (h | ⟨s, h, -⟩) <;> cases h
  · rintro (h | ⟨s, h, hunknown⟩)
    · cases h
    · cases h
      exact hunknown (by decide)

/-- A list of numbers that may be absent has one mark, however often it is made optional. -/
theorem renderType_marks_readings :
    anyReadings.Spelled ∧ (∀ u ∈ anyReadings.leaves, Unmarked u) ∧
    anyReadings.IsSole readings ∧ readings.isAbsent = false ∧
    (∃ reports s, renderType annotation.toValue readings false = ⟨reports, .ok (.text s)⟩ ∧
      renderType annotation.toValue anyReadings true = ⟨reports, .ok (.text (s ++
        if anyReadings.members.any Ty.isAbsent || true then "?" else ""))⟩) ∧
    (∃ reports s, renderType annotation.toValue anyReadings true = ⟨reports, .ok (.text s)⟩ ∧
      ¬['?', '?'] <:+ s.toList) ∧
    ∀ k, (renderType annotation.toValue (Ty.optional^[k + 1] anyReadings) true).outcome =
      (renderType annotation.toValue anyReadings.optional true).outcome := by
  have hspelled : anyReadings.Spelled := by
    rw [Ty.spelled_iff]
    decide
  have hsole : anyReadings.IsSole readings := (Ty.concrete?_eq_some_iff hspelled).1 (by decide)
  obtain ⟨hmarks, hagain⟩ := renderType_marks annotation anyReadings true
  obtain ⟨hsingle, hnever⟩ := hmarks hspelled unmarked_anyReadings
  exact ⟨hspelled, unmarked_anyReadings, hsole, by decide,
    hsingle readings hsole (by decide), hnever, hagain⟩

end CSharp

end CodeSample

import CodeSample.Proofs.TypeMembers
import CodeSample.Proofs.TypeWords
import CodeSample.Target.Registry

/-!
# Placeholders in the spelling of a type

A type that C# cannot express is not left out: a placeholder stands for it, inside of whatever
arrays and maps it is the element type of. One of the two placeholders is for unions without exactly
one member that counts, and goes with a report; the other is for types that have no name in C#, and
is silent.

* `Text.Occurs` says that a text stands in another one, and `Kept` that a property of spellings does
  not depend on how types are put together;
* `Written` is what is reported and written for a type that leads no further, `LacksName` says that
  there is no name for it;
* `exists_renderType_of_leadsTo`: what is reported and written for a type is what is reported and
  written where it leads, by induction along its elements;
* `renderType_reports` and `renderType_placeholders` are the statements on reports and placeholders.
-/

namespace CodeSample

/-! ### Occurrences -/

namespace Text

/-- A text stands somewhere in another one. -/
def Occurs (p s : String) : Prop := p.toList <:+: s.toList

instance (p s : String) : Decidable (Occurs p s) :=
  inferInstanceAs (Decidable (p.toList <:+: s.toList))

variable {p : String} {cs ds : List Char}

/-- Characters that are not in a text make no occurrence of it when they come behind. -/
theorem infix_append_iff_left {p : List Char} (hp : p ≠ []) (h : ∀ c ∈ ds, c ∉ p) :
    p <:+: cs ++ ds ↔ p <:+: cs := by
  induction ds generalizing cs with
  | nil => rw [List.append_nil]
  | cons d ds ih =>
    rw [List.forall_mem_cons] at h
    rw [List.append_cons, ih h.2, List.infix_concat_iff, or_iff_right]
    intro hsuffix
    rcases List.suffix_concat_iff.1 hsuffix with hnil | ⟨t, ht, -⟩
    · exact hp hnil
    · exact h.1 (by simp [ht])

/-- Nor when they come in front. -/
theorem infix_append_iff_right {p : List Char} (hp : p ≠ []) (h : ∀ c ∈ cs, c ∉ p) :
    p <:+: cs ++ ds ↔ p <:+: ds := by
  induction cs with
  | nil => rw [List.nil_append]
  | cons c cs ih =>
    rw [List.forall_mem_cons] at h
    rw [List.cons_append, List.infix_cons_iff, ih h.2, or_iff_right]
    intro hprefix
    obtain ⟨d, rest, rfl⟩ := List.exists_cons_of_ne_nil hp
    exact h.1 (by simp [(List.cons_prefix_cons.1 hprefix).1])

end Text

namespace CSharp

open Text (Occurs)

variable {n : Node} {t u : Ty}

/-! ### What does not depend on how types are put together -/

/-- A property of texts that the spelling of a type has if that of its elements has it, and only
then, and that no mark of a nullable type changes. -/
structure Kept (Q : String → Prop) : Prop where
  marker : ∀ s, Q (withOptionalMarker s) ↔ Q s
  array : ∀ s, Q (s ++ "[]") ↔ Q s
  dictionary : ∀ s, Q ("IDictionary<string, " ++ s ++ ">") ↔ Q s

/-- A text that shares no character with what stands around elements. -/
theorem kept_of_marker {p : String} (hp : p.toList ≠ [])
    (h : ∀ c ∈ "IDictionary<string, ".toList ++ (">".toList ++ "[]".toList), c ∉ p.toList)
    (hmarker : ∀ s, Occurs p (withOptionalMarker s) ↔ Occurs p s) : Kept (Occurs p) where
  marker := hmarker
  array s := by
    unfold Occurs
    rw [String.toList_append]
    exact Text.infix_append_iff_left hp fun c hc =>
      h c (List.mem_append_right _ (List.mem_append_right _ hc))
  dictionary s := by
    unfold Occurs
    rw [String.toList_append, String.toList_append, Text.infix_append_iff_left hp,
      Text.infix_append_iff_right hp]
    · exact fun c hc => h c (List.mem_append_left _ hc)
    · exact fun c hc => h c (List.mem_append_right _ (List.mem_append_left _ hc))

/-- Whether the placeholder for unions occurs is kept where types are put together: neither a mark
nor brackets bring it in or break it up. -/
theorem kept_unsupportedType : Kept (Occurs unsupportedType) := by
  refine kept_of_marker (by decide) (by simp [unsupportedType]) fun s => ?_
  unfold withOptionalMarker
  split
  · exact Iff.rfl
  · unfold Occurs
    rw [String.toList_append]
    exact Text.infix_append_iff_left (by decide) (by simp [unsupportedType])

/-- A mark that is put behind a text which does not end in one makes no three of them. -/
theorem kept_unknownType : Kept (Occurs unknownType) := by
  refine kept_of_marker (by decide) (by simp [unknownType]) fun s => ?_
  unfold withOptionalMarker
  split
  · exact Iff.rfl
  · rename_i hlast
    unfold Occurs
    rw [String.toList_append]
    show unknownType.toList <:+: s.toList ++ ['?'] ↔ _
    rw [List.infix_concat_iff, or_iff_right]
    intro hsuffix
    rcases List.suffix_concat_iff.1 hsuffix with hnil | ⟨marks, hmarks, x, hx⟩
    · exact absurd hnil (by decide)
    · have hmarks : marks = ['?', '?'] := by
        have : ['?', '?'] ++ ['?'] = marks ++ ['?'] := hmarks
        exact (List.append_cancel_right this).symm
      refine hlast ?_
      rw [← hx, hmarks]
      simp

/-! ### One step along the elements -/

/-- The spelling of the one member of a type that counts. -/
def memberType (n : Value) : Ty → Run Value
  | .map e => do dictionaryOf (← renderType n e false)
  | .array e => do (← renderType n e false).before "[]"
  | u => typeName u

/-- A map is spelled by the text of its elements. -/
theorem memberType_map {e : Ty} {r : List Diagnostic} {x : String}
    (hx : renderType n.toValue e false = ⟨r, .ok (.text x)⟩) :
    memberType n.toValue (.map e) = ⟨r, .ok (.text ("IDictionary<string, " ++ x ++ ">"))⟩ := by
  rw [memberType, hx, Run.bind_ok]
  simp [dictionaryOf, Value.after, Value.before, liftM, monadLift, MonadLift.monadLift,
    Run.ofExcept, bind, Except.bind]

/-- So is an array. -/
theorem memberType_array {e : Ty} {r : List Diagnostic} {x : String}
    (hx : renderType n.toValue e false = ⟨r, .ok (.text x)⟩) :
    memberType n.toValue (.array e) = ⟨r, .ok (.text (x ++ "[]"))⟩ := by
  rw [memberType, hx, Run.bind_ok]
  simp [Value.before, liftM, monadLift, MonadLift.monadLift, Run.ofExcept]

/-- Any other type that is no union is spelled by its name. -/
theorem memberType_of_item? (hitem : u.item? = none) {w : String}
    (hw : typeName u = .ok (.text w)) : memberType n.toValue u = ⟨[], .ok (.text w)⟩ := by
  rw [memberType.eq_3 _ u (by rintro e rfl; cases hitem) (by rintro e rfl; cases hitem), hw]
  rfl

/-- A type is spelled as its one member that counts, with a mark if it or its place asks for it. -/
theorem renderType_of_concrete? (hu : t.concrete? = some u) (n : Value) (nullable : Bool) :
    renderType n t nullable =
      memberType n u >>= fun v => liftM (markedIf (t.admitsAbsent || nullable) v) := by
  rw [renderType]
  split <;> rename_i h <;> rw [hu] at h <;> cases h
  · rw [memberType, bind_assoc]
  · rw [memberType, bind_assoc]
  · rename_i hmap harray
    rw [memberType.eq_3 n u hmap harray]

/-- A union without exactly one member that counts is reported. -/
theorem renderType_of_concrete?_eq_none (h : t.concrete? = none) (n : Value) (nullable : Bool) :
    renderType n t nullable = do
      Run.report n (.text (← unionProblem t))
      return .text unsupportedType := by
  rw [renderType]
  split <;> rename_i hsome <;> rw [h] at hsome <;> cases hsome

/-- A type with one member that counts is written as this member, with a mark if it is nullable. -/
theorem renderType_of_isSole (ht : t.Spelled) (hu : t.IsSole u) (n : Value) (nullable : Bool) :
    renderType n t nullable =
      memberType n u >>= fun v => liftM (markedIf (t.admitsAbsent || nullable) v) :=
  renderType_of_concrete? ((Ty.concrete?_eq_some_iff ht).2 hu) n nullable

/-- Marks aside, a type is spelled as its one member that counts. -/
theorem exists_renderType_of_isSole (ht : t.Spelled) (hu : t.IsSole u) {r : List Diagnostic}
    {w : String} (hw : memberType n.toValue u = ⟨r, .ok (.text w)⟩) (nullable : Bool) :
    ∃ s, renderType n.toValue t nullable = ⟨r, .ok (.text s)⟩ ∧
      ∀ Q, Kept Q → (Q s ↔ Q w) := by
  rw [renderType_of_isSole ht hu, hw, Run.bind_ok]
  cases t.admitsAbsent || nullable with
  | false => exact ⟨w, by simp [markedIf, liftM, monadLift, MonadLift.monadLift, Run.ofExcept],
      fun _ _ => Iff.rfl⟩
  | true => exact ⟨withOptionalMarker w, by simp [markedIf, marked, Value.text?, liftM, monadLift,
      MonadLift.monadLift, Run.ofExcept], fun Q hQ => hQ.marker w⟩

/-- The report of a union without exactly one member that counts. -/
def undecidedReport (n : Node) (t : Ty) : Diagnostic :=
  ⟨n, .text ("Type unions in examples are not supported: " ++ t.spelling)⟩

/-- An undecided union is reported, and the placeholder is written. -/
theorem renderType_of_isUndecided (ht : t.Spelled) (h : t.IsUndecided) (n : Node)
    (nullable : Bool) : renderType n.toValue t nullable =
      ⟨[undecidedReport n t], .ok (.text unsupportedType)⟩ := by
  have hproblem : unionProblem t =
      .ok ("Type unions in examples are not supported: " ++ t.spelling) := by
    rw [unionProblem, Ty.describe_of_spelled t ht]
  rw [renderType_of_concrete?_eq_none ((Ty.concrete?_eq_none_iff ht).2 h), hproblem]
  rfl

/-! ### The end of the way -/

/-- A name is not found in the table exactly if it is not that of a builtin type. -/
theorem lookup_builtinTypes_eq_none {s : String} :
    builtinTypes.lookup s = none ↔ s ∉ builtinTypes.map Prod.fst := by
  rw [List.lookup_eq_none_iff, List.mem_map]
  constructor
  · rintro hother ⟨x, hx, rfl⟩
    simpa using hother x hx
  · intro hnot x hx
    rw [bne_iff_ne]
    rintro rfl
    exact hnot ⟨x, hx, rfl⟩

/-- A type that C# has no name for: a builtin one that is not known, or one without a spelling. -/
def LacksName (t : Ty) : Prop :=
  t = .unspelled ∨ ∃ s, t = .primitive (.text s) ∧ s ∉ builtinTypes.map Prod.fst

/-- What is neither a union, an array nor a map is written by a word: the silent placeholder exactly
if it lacks a name, and else one for a builtin type or a name of its own. -/
theorem exists_typeName (hu : u.Spelled) (hunion : u.isUnion = false) (hitem : u.item? = none) :
    ∃ w, typeName u = .ok (.text w) ∧
      ((LacksName u ∧ w = unknownType) ∨
        ¬LacksName u ∧ (w ∈ builtinTypes.map Prod.snd ∨
          ∃ name aliasName struct, u = .named name aliasName struct ∧
            (name = .text w ∨ aliasName = .text w))) := by
  cases u with
  | array _ | map _ => cases hitem
  | union _ => cases hunion
  | unspelled => exact ⟨unknownType, rfl, Or.inl ⟨Or.inl rfl, rfl⟩⟩
  | primitive name =>
    obtain ⟨s, rfl⟩ := by simpa only [Ty.Spelled] using hu
    refine ⟨builtinName s, rfl, ?_⟩
    unfold builtinName LacksName
    cases hlookup : builtinTypes.lookup s with
    | none => exact Or.inl ⟨Or.inr ⟨s, rfl, lookup_builtinTypes_eq_none.1 hlookup⟩, rfl⟩
    | some w =>
      obtain ⟨l₁, l₂, hl, -⟩ := List.lookup_eq_some_iff.1 hlookup
      refine Or.inr ⟨?_, Or.inl (List.mem_map.2 ⟨(s, w), by simp [hl], rfl⟩)⟩
      rintro (heq | ⟨s', heq, hnot⟩)
      · cases heq
      · cases heq
        exact hnot (List.mem_map.2 ⟨(s, w), by simp [hl], rfl⟩)
  | named name aliasName struct =>
    simp only [Ty.Spelled] at hu
    have hshown := Ty.shownName_text hu.1 hu.2
    refine ⟨_, by rw [typeName, hshown, Value.ofData], Or.inr ⟨?_, Or.inr ⟨_, _, _, rfl, ?_⟩⟩⟩
    · rintro (heq | ⟨_, heq, -⟩) <;> cases heq
    · rw [← hshown, Ty.shownName]
      split
      · exact Or.inr rfl
      · exact Or.inl rfl

/-- What is reported and written for a type that leads no further. -/
inductive Written (n : Node) : Ty → List Diagnostic → String → Prop where
  | undecided {t : Ty} : t.IsUndecided → Written n t [undecidedReport n t] unsupportedType
  | named {t u : Ty} {w : String} : t.IsSole u → u.item? = none →
      typeName u = .ok (.text w) → Written n t [] w

/-- Marks, arrays and maps aside, what is written for a type is what is written where it leads, and
so is what is reported. -/
theorem exists_renderType_of_leadsTo (ht : t.Spelled) (h : t.LeadsTo u) {r : List Diagnostic}
    {w : String} (hw : Written n u r w) (nullable : Bool) :
    ∃ s, renderType n.toValue t nullable = ⟨r, .ok (.text s)⟩ ∧
      ∀ Q, Kept Q → (Q s ↔ Q w) := by
  induction h generalizing nullable with
  | here t =>
    cases hw with
    | undecided hundecided =>
      exact ⟨_, renderType_of_isUndecided ht hundecided n nullable, fun _ _ => Iff.rfl⟩
    | @named v _ hv hitem hname =>
      exact exists_renderType_of_isSole ht hv (memberType_of_item? hitem hname) nullable
  | @item t s e u hs he h ih =>
    have hspelled : e.Spelled := Ty.spelled_of_within (.trans (Ty.within_of_item? he) hs.within) ht
    obtain ⟨x, hx, hQx⟩ := ih hspelled hw false
    obtain ⟨y, hy, hQy⟩ : ∃ y, memberType n.toValue s = ⟨r, .ok (.text y)⟩ ∧
        ∀ Q, Kept Q → (Q y ↔ Q x) := by
      cases s with
      | map _ =>
        cases he
        exact ⟨_, memberType_map hx, fun Q hQ => hQ.dictionary x⟩
      | array _ =>
        cases he
        exact ⟨_, memberType_array hx, fun Q hQ => hQ.array x⟩
      | _ => cases he
    obtain ⟨z, hz, hQz⟩ := exists_renderType_of_isSole ht hs hy nullable
    exact ⟨z, hz, fun Q hQ => (hQz Q hQ).trans ((hQy Q hQ).trans (hQx Q hQ))⟩

/-- Every type that has a spelling leads to one that something is written for, by induction on the
depth. -/
theorem exists_written (ht : t.Spelled) (n : Node) :
    ∃ u reports w, t.LeadsTo u ∧ Written n u reports w := by
  induction hd : t.depth using Nat.strongRecOn generalizing t with | _ depth ih
  subst hd
  rcases t.isUndecided_or_isSole with hundecided | ⟨v, hv⟩
  · exact ⟨t, _, _, .here t, .undecided hundecided⟩
  have hspelled : v.Spelled := Ty.spelled_of_within hv.within ht
  cases hitem : v.item? with
  | none =>
    obtain ⟨w, hw, -⟩ := exists_typeName hspelled hv.isUnion hitem
    exact ⟨t, _, w, .here t, .named hv hitem hw⟩
  | some e =>
    have hdepth : e.depth < t.depth := by
      have hle := Ty.depth_le_of_concrete? ((Ty.concrete?_eq_some_iff ht).2 hv)
      have hlt := Ty.depth_lt_of_item? hitem
      omega
    obtain ⟨u, reports, w, hleads, hw⟩ :=
      ih _ hdepth (Ty.spelled_of_within (Ty.within_of_item? hitem) hspelled) rfl
    exact ⟨u, reports, w, .item hv hitem hleads, hw⟩

/-! ### Reports and placeholders -/

/-- None of the names that users gave to the types within a type, and none of their aliases, has a
text in it. -/
def Avoids (p : String) (t : Ty) : Prop :=
  ∀ name aliasName struct, (Ty.named name aliasName struct).Within t →
    ∀ s, name = .text s ∨ aliasName = .text s → ¬Occurs p s

/-- It is enough to look at all names. -/
theorem avoids_of_names {p : String} (h : ∀ s, .text s ∈ t.names → ¬Occurs p s) : Avoids p t := by
  intro name aliasName struct hwithin s hs
  refine h s (Ty.names_of_within hwithin _ ?_)
  rw [Ty.names]
  rcases hs with rfl | rfl <;> simp

/-- A union that is reported is met on the way, or the type is written by a name. -/
theorem exists_renderType (ht : t.Spelled) (n : Node) (nullable : Bool) :
    (∃ u s, t.LeadsTo u ∧ u.IsUndecided ∧
      renderType n.toValue t nullable = ⟨[undecidedReport n u], .ok (.text s)⟩ ∧
      ∀ Q, Kept Q → (Q s ↔ Q unsupportedType)) ∨
    ∃ u v w s, t.LeadsTo u ∧ u.IsSole v ∧ v.item? = none ∧ typeName v = .ok (.text w) ∧
      renderType n.toValue t nullable = ⟨[], .ok (.text s)⟩ ∧ ∀ Q, Kept Q → (Q s ↔ Q w) := by
  obtain ⟨u, reports, w, hleads, hw⟩ := exists_written ht n
  obtain ⟨s, hs, hQ⟩ := exists_renderType_of_leadsTo ht hleads hw nullable
  cases hw with
  | undecided hundecided => exact Or.inl ⟨u, s, hleads, hundecided, hs, hQ⟩
  | @named v _ hv hitem hname => exact Or.inr ⟨u, v, w, s, hleads, hv, hitem, hname, hs, hQ⟩

/-- A union without exactly one member that counts is reported, wherever the way meets it. -/
theorem reports_of_isUndecided (ht : t.Spelled) (hleads : t.LeadsTo u) (hu : u.IsUndecided)
    {nullable : Bool} {reports : List Diagnostic} {outcome : Except Fault Value}
    (h : renderType n.toValue t nullable = ⟨reports, outcome⟩) :
    reports = [undecidedReport n u] := by
  obtain ⟨s, hs, -⟩ := exists_renderType_of_leadsTo ht hleads (.undecided hu) nullable
  exact congrArg Run.reports (h.symm.trans hs)

/-- A type without a name is written by the placeholder for it. -/
theorem written_of_lacksName {v : Ty} (hv : u.IsSole v) (hlacks : LacksName v) :
    Written n u [] unknownType := by
  have hitem : v.item? = none := by rcases hlacks with rfl | ⟨s, rfl, -⟩ <;> rfl
  refine .named hv hitem ?_
  rcases hlacks with rfl | ⟨s, rfl, hs⟩
  · rfl
  · show Except.ok (Value.text (builtinName s)) = _
    rw [builtinName, lookup_builtinTypes_eq_none.2 hs]
    rfl

/-- No builtin type is named like a placeholder. -/
theorem not_occurs_builtinTypes : ∀ p ∈ [unknownType, unsupportedType],
    ∀ s ∈ builtinTypes.map Prod.snd, ¬Occurs p s := by decide +kernel

/-- A name that was found has a placeholder in it only if it is the one for types without a name. -/
theorem occurs_typeName {p w : String} (hp : p ∈ [unknownType, unsupportedType])
    (ht : t.Spelled) (havoids : Avoids p t) (hwithin : u.Within t) (hunion : u.isUnion = false)
    (hitem : u.item? = none) (hw : typeName u = .ok (.text w)) :
    Occurs p w ↔ LacksName u ∧ Occurs p unknownType := by
  obtain ⟨w', hw', hcases⟩ := exists_typeName (Ty.spelled_of_within hwithin ht) hunion hitem
  cases hw.symm.trans hw'
  rcases hcases with ⟨hlacks, rfl⟩ | ⟨hhas, hbuiltin | ⟨name, aliasName, struct, rfl, hnamed⟩⟩
  · rw [and_iff_right hlacks]
  · exact iff_of_false (not_occurs_builtinTypes p hp w hbuiltin) fun h => hhas h.1
  · exact iff_of_false (havoids name aliasName struct hwithin w hnamed) fun h => hhas h.1

/-- The placeholder for undecided unions is no part of a name. -/
theorem not_occurs_typeName {w : String} (ht : t.Spelled) (havoids : Avoids "..." t)
    (hwithin : u.Within t) (hunion : u.isUnion = false) (hitem : u.item? = none)
    (hw : typeName u = .ok (.text w)) : ¬Occurs unsupportedType w := by
  intro hoccurs
  have hnot : ¬Occurs unsupportedType unknownType := by decide +kernel
  exact hnot ((occurs_typeName (List.mem_cons_of_mem _ List.mem_cons_self) ht havoids hwithin hunion
    hitem hw).1 hoccurs).2

/-- At most one problem is reported for a type, on the node that the type is asked for, and it is
reported if and only if a union without exactly one member that counts is met on the way from member
to element. The message ends with that union, and a placeholder for it stands in what is written. -/
theorem renderType_reports (n : Node) (t : Ty) (nullable : Bool) (ht : t.Spelled)
    (havoids : Avoids "..." t) :
    ∃ reports s, renderType n.toValue t nullable = ⟨reports, .ok (.text s)⟩ ∧
      reports.length ≤ 1 ∧
      (∀ d ∈ reports, d.node = n) ∧
      (reports.length = 1 ↔ ∃ u, t.LeadsTo u ∧ u.IsUndecided) ∧
      (∀ u, t.LeadsTo u → u.IsUndecided → ∃ w, u.describe = .ok (.text w) ∧
        ∀ d ∈ reports, d.message = .text ("Type unions in examples are not supported: " ++ w)) ∧
      (Occurs "..." s ↔ ∃ u, t.LeadsTo u ∧ u.IsUndecided) := by
  rcases exists_renderType ht n nullable with
    ⟨u, s, hleads, hundecided, hs, hQ⟩ | ⟨u, v, w, s, hleads, hv, hitem, hw, hs, hQ⟩
  · have hmet : ∃ u, t.LeadsTo u ∧ u.IsUndecided := ⟨u, hleads, hundecided⟩
    refine ⟨_, s, hs, Nat.le_refl _, ?_, iff_of_true rfl hmet, ?_, iff_of_true ?_ hmet⟩
    · intro d hd
      rw [List.mem_singleton.1 hd]
      rfl
    · -- there is only one report, so any such union is the one in it
      intro u' hleads' hundecided'
      refine ⟨_, Ty.describe_of_spelled u' (hleads'.spelled ht), fun d hd => ?_⟩
      rw [reports_of_isUndecided ht hleads' hundecided' hs] at hd
      rw [List.mem_singleton.1 hd]
      rfl
    · exact (hQ _ kept_unsupportedType).2 (by decide +kernel)
  · have hnone : ¬∃ u, t.LeadsTo u ∧ u.IsUndecided := by
      rintro ⟨u', hleads', hundecided'⟩
      cases reports_of_isUndecided ht hleads' hundecided' hs
    have hplain : ¬Occurs "..." s := fun hoccurs =>
      not_occurs_typeName ht havoids (hv.within.trans hleads.within) hv.isUnion hitem hw
        ((hQ _ kept_unsupportedType).1 hoccurs)
    refine ⟨[], s, hs, by simp, by simp, iff_of_false (by simp) hnone, ?_,
      iff_of_false hplain hnone⟩
    exact fun u' hleads' hundecided' => absurd ⟨u', hleads', hundecided'⟩ hnone

/-- Lists of tables of rates, some of which are missing; a rate has a name or is a number. -/
def rateTables : Ty :=
  let rate := Ty.union [.named (.text "Rate") .null false, .primitive (.text "number")]
  .array (.union [.map rate, .null])

/-- An annotation that nothing is recorded of. -/
def annotation : Node := ⟨.typeNode, .unknown, .text "", none, []⟩

/-- Tables of rates are reported once, for the undecided union that they lead to. -/
theorem renderType_reports_rateTables :
    rateTables.Spelled ∧ Avoids "..." rateTables ∧
    ∃ reports s, renderType annotation.toValue rateTables false = ⟨reports, .ok (.text s)⟩ ∧
      reports.length ≤ 1 ∧
      (∀ d ∈ reports, d.node = annotation) ∧
      (reports.length = 1 ↔ ∃ u, rateTables.LeadsTo u ∧ u.IsUndecided) ∧
      (∀ u, rateTables.LeadsTo u → u.IsUndecided → ∃ w, u.describe = .ok (.text w) ∧
        ∀ d ∈ reports, d.message = .text ("Type unions in examples are not supported: " ++ w)) ∧
      (Occurs "..." s ↔ ∃ u, rateTables.LeadsTo u ∧ u.IsUndecided) := by
  have hspelled : rateTables.Spelled := by
    rw [Ty.spelled_iff]
    decide
  have hnames : rateTables.names = [.text "Rate", .text "number", .text "null"] := by decide
  have havoids : Avoids "..." rateTables := avoids_of_names (by
    simp only [hnames, List.mem_cons, Data.text.injEq, List.not_mem_nil, or_false,
      forall_eq_or_imp, forall_eq]
    decide +kernel)
  exact ⟨hspelled, havoids, renderType_reports annotation rateTables false hspelled havoids⟩

/-- The placeholder of a union that is reported stands in what is written if and only if there is a
report. The placeholder of types without a name stands there if and only if such a type is what a
type comes down to on the way from member to element, and then there is no report. -/
theorem renderType_placeholders (n : Node) (t : Ty) (nullable : Bool) (ht : t.Spelled)
    (havoids : Avoids "..." t) (havoids' : Avoids "???" t) :
    ∃ reports s, renderType n.toValue t nullable = ⟨reports, .ok (.text s)⟩ ∧
      (Occurs "..." s ↔ reports ≠ []) ∧
      (Occurs "???" s ↔ ∃ u v, t.LeadsTo u ∧ u.IsSole v ∧ LacksName v) ∧
      (Occurs "???" s → reports = []) := by
  rcases exists_renderType ht n nullable with
    ⟨u, s, hleads, hundecided, hs, hQ⟩ | ⟨u, v, w, s, hleads, hv, hitem, hw, hs, hQ⟩
  · have hnone : ¬Occurs "???" s := fun h =>
      absurd ((hQ _ kept_unknownType).1 h) (by decide +kernel)
    refine ⟨_, s, hs, iff_of_true ((hQ _ kept_unsupportedType).2 (by decide +kernel)) (by simp),
      iff_of_false hnone ?_, fun h => absurd h hnone⟩
    rintro ⟨u', v', hleads', hv', hlacks⟩
    obtain ⟨s', hs', -⟩ :=
      exists_renderType_of_leadsTo ht hleads' (written_of_lacksName hv' hlacks) nullable
    cases congrArg Run.reports (hs.symm.trans hs')
  · have hwithin : v.Within t := hv.within.trans hleads.within
    refine ⟨[], s, hs, iff_of_false ?_ (by simp), ⟨fun h => ?_, ?_⟩, fun _ => rfl⟩
    · exact fun hoccurs => not_occurs_typeName ht havoids hwithin hv.isUnion hitem hw
        ((hQ _ kept_unsupportedType).1 hoccurs)
    · exact ⟨u, v, hleads, hv, ((occurs_typeName List.mem_cons_self ht havoids' hwithin hv.isUnion
        hitem hw).1 ((hQ _ kept_unknownType).1 h)).1⟩
    · rintro ⟨u', v', hleads', hv', hlacks⟩
      obtain ⟨s', hs', hQ'⟩ :=
        exists_renderType_of_leadsTo ht hleads' (written_of_lacksName hv' hlacks) nullable
      cases hs.symm.trans hs'
      exact (hQ' _ kept_unknownType).2 (by decide +kernel)

/-- Lists of symbols, some of which are missing. -/
def symbols : Ty := .array (.union [.primitive (.text "symbol"), .undefined])

/-- A list of symbols is written with the silent placeholder, and nothing is reported. -/
theorem renderType_placeholders_symbols :
    symbols.Spelled ∧ Avoids "..." symbols ∧ Avoids "???" symbols ∧
    ∃ reports s, renderType annotation.toValue symbols true = ⟨reports, .ok (.text s)⟩ ∧
      (Occurs "..." s ↔ reports ≠ []) ∧
      (Occurs "???" s ↔ ∃ u v, symbols.LeadsTo u ∧ u.IsSole v ∧ LacksName v) ∧
      (Occurs "???" s → reports = []) := by
  have hspelled : symbols.Spelled := by
    rw [Ty.spelled_iff]
    decide
  have hnames : symbols.names = [.text "symbol", .text "undefined"] := by decide
  have havoids (p : String) (hp : ∀ s ∈ ["symbol", "undefined"], ¬Occurs p s) : Avoids p symbols :=
    avoids_of_names (by simpa [hnames] using hp)
  have hunsupported : Avoids "..." symbols := havoids _ (by decide +kernel)
  have hunknown : Avoids "???" symbols := havoids _ (by decide +kernel)
  exact ⟨hspelled, hunsupported, hunknown,
    renderType_placeholders annotation symbols true hspelled hunsupported hunknown⟩

/-- A parameter that is annotated as a symbol. -/
def symbolParameter : Value :=
  .node .parameter .unknown (.text "") none [
    .node .identifier .unknown (.text "v") none [.text "v"],
    .node .typeNode .unknown (.text "symbol") (some (.primitive (.text "symbol"))) [],
    .null, .bool false]

/-- A builtin type that is not known is not reported: neither for the type on its own, nor in a
rendering. -/
theorem renderType_symbol :
    renderType annotation.toValue (.primitive (.text "symbol")) false = ⟨[], .ok (.text "???")⟩ ∧
    (Target.render (.text name) [] .recorded symbolParameter).map
      (fun r => (r.text, r.isOk)) = .ok ("??? v", true) := by
  constructor
  · have hspelled : (Ty.primitive (.text "symbol")).Spelled := by simp [Ty.Spelled]
    rw [renderType_of_isSole hspelled (Or.inl ⟨rfl, rfl⟩)]
    rfl
  · decide +kernel

end CSharp

end CodeSample

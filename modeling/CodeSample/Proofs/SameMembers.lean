import CodeSample.Proofs.Likeness
import CodeSample.Proofs.StatementRules
import CodeSample.Proofs.TypePlaceholders

/-!
# Unions with the same members

What is made of a union has nothing to do with how its members are put together. Two unions with the
same members have the same one member that counts, are spelled by the same text, and are reported
together; so an object literal is rendered the same whichever of them it has as its type.

* `Ty.HasText` says that the spelling of a type is a text, as it has to be in a report;
  `hasText_iff_members`: the members of a type decide it;
* `Ty.SameMembers` says of two unions that they have the same members;
* `renderType_of_sameMembers`: then they are spelled by the same text;
* `Node.Retyped` says that two nodes are the same but for their types, and `Run.AlikeButTypes` that
  two runs differ in nothing else; `alike_objectLiteral_of_retyped`: the rule for object literals
  goes alike on such nodes;
* `rendered_by_members` is the statement for everything that is made of a union.
-/

namespace CodeSample

/-! ### Values that are the same -/

/-- A whole number that is equal to a value is zero exactly if the value is, and zero is equal to a
whole number. -/
theorem Double.exactInt?_eq_some_zero (x : Double) : x.exactInt? = some 0 ↔ x.isZero = true := by
  have hsigned (negative : Bool) (size : Nat) :
      some (if negative then -(size : Int) else size) = some 0 ↔ size = 0 := by
    rw [Option.some.injEq]
    cases negative with
    | false => exact Int.natCast_eq_zero
    | true => exact Int.neg_eq_zero.trans Int.natCast_eq_zero
  cases x with
  | infinite _ | nan => simp [exactInt?, toInt?, isZero]
  | finite negative m e =>
    rw [isZero, beq_iff_eq]
    cases e with
    | ofNat k =>
      have hscale : m * 2 ^ k = 0 ↔ m = 0 := Nat.mul_eq_zero.trans (or_iff_left (by simp))
      exact (hsigned negative (m * 2 ^ k)).trans hscale
    | negSucc k =>
      by_cases hrem : m % 2 ^ (k + 1) = 0
      · have hexact : (finite negative m (.negSucc k)).exactInt? =
            some (if negative then -((m / 2 ^ (k + 1) : Nat) : Int) else (m / 2 ^ (k + 1) : Nat)) :=
          if_pos hrem
        rw [hexact, hsigned]
        refine ⟨Nat.eq_zero_of_dvd_of_div_eq_zero (Nat.dvd_of_mod_eq_zero hrem), ?_⟩
        rintro rfl
        exact Nat.zero_div _
      · have hexact : (finite negative m (.negSucc k)).exactInt? = none := if_neg hrem
        rw [hexact]
        refine iff_of_false (by simp) ?_
        rintro rfl
        exact hrem (Nat.zero_mod _)

namespace Data

/-- Data that are equal in value count as true together. -/
theorem truthy_key (d : Data) : d.key.truthy = d.truthy := by
  cases d with
  | null | text _ | int _ => rfl
  | bool b => cases b <;> rfl
  | float x =>
    rw [key]
    have hzero := x.exactInt?_eq_some_zero
    cases h : x.exactInt? with
    | none => rfl
    | some n =>
      rw [h, Option.some.injEq] at hzero
      rw [Bool.eq_iff_iff]
      simpa [truthy] using not_congr hzero
  | list xs => cases xs <;> simp [key, keyItems, truthy]
  | object ms =>
    have hinsert (m : String × Data) (ns : List (String × Data)) : insertMember m ns ≠ [] := by
      cases ns with
      | nil => simp [insertMember]
      | cons n ns =>
        rw [insertMember]
        split <;> simp
    cases ms with
    | nil => rfl
    | cons m ms => simp [key, keyMembers, truthy, hinsert]

/-- A datum has the key of a text only if it is the text. -/
theorem key_eq_text {d : Data} {s : String} : d.key = text s ↔ d = text s := by
  cases d with
  | float x =>
    rw [key]
    cases x.exactInt? <;> simp
  | _ => simp [key]

end Data

namespace Ty

variable {t u : Ty} {ts : List Ty}

/-! ### What can be spelled -/

/-- The spelling of a type is a text. -/
def HasText (t : Ty) : Prop := ∃ s, t.describe = .ok (.text s)

/-- The descriptions of some types are texts if that of each type is. -/
theorem exists_textsFrom_describeAll (ts : List Ty) (i : Nat) :
    (∃ ss, describeAll ts >>= Data.textsFrom i = .ok ss) ↔ ∀ t ∈ ts, t.HasText := by
  induction ts generalizing i with
  | nil => simp [describeAll, Data.textsFrom, bind, Except.bind]
  | cons t ts ih =>
    rw [List.forall_mem_cons, ← ih (i + 1), describeAll, HasText]
    cases t.describe with
    | error clash => simp [bind, Except.bind]
    | ok d =>
      cases describeAll ts with
      | error clash => simp [bind, Except.bind]
      | ok ds =>
        cases d with
        | text s =>
          show (∃ ss, Data.textsFrom i (.text s :: ds) = .ok ss) ↔
            (∃ s', Except.ok (Data.text s) = .ok (.text s')) ∧
              ∃ ss, Data.textsFrom (i + 1) ds = .ok ss
          rw [Data.textsFrom]
          cases Data.textsFrom (i + 1) ds <;> simp [bind, Except.bind, pure, Except.pure]
        | _ => simp [bind, Except.bind, pure, Except.pure, Data.textsFrom]

/-- The spelling of a union is a text if that of each member is. -/
theorem hasText_union : (union ts).HasText ↔ ∀ t ∈ ts, t.HasText := by
  rw [← exists_textsFrom_describeAll ts 0, HasText, describe]
  unfold Data.join
  cases describeAll ts with
  | error clash => simp [bind, Except.bind]
  | ok ds => cases h : Data.textsFrom 0 ds <;> simp [bind, Except.bind, pure, Except.pure, h]

/-- The spelling of an array is a text if that of its element type is. -/
theorem hasText_array : (array t).HasText ↔ t.HasText := by
  unfold HasText
  rw [describe]
  cases t.describe with
  | error clash => simp [bind, Except.bind]
  | ok d =>
    cases d with
    | text s =>
      show (∃ s', describeArray t.isUnion (.text s) = _) ↔ _
      rw [describeArray_text]
      simp
    | _ =>
      cases t.isUnion <;>
        simp [bind, Except.bind, describeArray, Data.before, Data.after, pure, Except.pure]

/-- The spelling of a map is a text if that of its element type is. -/
theorem hasText_map : (map t).HasText ↔ t.HasText := by
  unfold HasText
  rw [describe]
  cases t.describe with
  | error clash => simp [bind, Except.bind]
  | ok d => cases d <;> simp [bind, Except.bind, describeMap, Data.before, Data.after]

/-- The spelling of a type with a name is a text if what is shown of the name is. -/
theorem hasText_named {name aliasName : Data} {struct : Bool} :
    (named name aliasName struct).HasText ↔ ∃ s, shownName name aliasName = .text s := by
  simp [HasText, describe]

/-- The spelling of a builtin type is a text if its name is. -/
theorem hasText_primitive {name : Data} : (primitive name).HasText ↔ ∃ s, name = .text s := by
  simp [HasText, describe]

mutual

/-- Types that are the same can be spelled together. -/
theorem hasText_key (t : Ty) : t.key.HasText ↔ t.HasText := by
  match t with
  | primitive name => simp only [key, hasText_primitive, Data.key_eq_text]
  | named name aliasName struct =>
    rw [key, hasText_named, hasText_named]
    unfold shownName
    rw [Data.truthy_key]
    split <;> simp only [Data.key_eq_text]
  | array t => rw [key, hasText_array, hasText_array, hasText_key t]
  | map t => rw [key, hasText_map, hasText_map, hasText_key t]
  | union ts => rw [key, hasText_union, hasText_union, hasText_keys ts]
  | unspelled => rw [key]

/-- Keys have spellings that are texts if the types do. -/
theorem hasText_keys (ts : List Ty) : (∀ t ∈ keys ts, t.HasText) ↔ ∀ t ∈ ts, t.HasText := by
  match ts with
  | [] => rw [keys]
  | t :: ts => rw [keys, List.forall_mem_cons, List.forall_mem_cons, hasText_key t, hasText_keys ts]

end

mutual

/-- A type can be spelled if and only if its leaves can be. -/
theorem hasText_iff_leaves (t : Ty) : t.HasText ↔ ∀ u ∈ t.leaves, u.HasText := by
  match t with
  | union ts => rw [leaves, hasText_union, forall_hasText_iff_leaves ts]
  | primitive _ | named .. | array _ | map _ | unspelled =>
    rw [leaves, List.forall_mem_singleton]
    simp

/-- All of some types have spellings that are texts if their leaves do: unions are taken apart and
nothing is lost. -/
theorem forall_hasText_iff_leaves (ts : List Ty) :
    (∀ t ∈ ts, t.HasText) ↔ ∀ u ∈ leavesOf ts, u.HasText := by
  match ts with
  | [] => simp [leavesOf]
  | t :: ts =>
    rw [leavesOf, List.forall_mem_cons, List.forall_mem_append, hasText_iff_leaves t,
      forall_hasText_iff_leaves ts]

end

/-- And it is enough to look at the members. -/
theorem hasText_iff_members (t : Ty) : t.HasText ↔ ∀ u ∈ t.members, u.HasText := by
  rw [hasText_iff_leaves]
  refine ⟨fun h u hu => h u (mem_leaves_of_mem_members t hu), fun h u hu => ?_⟩
  obtain ⟨v, hv, hsame⟩ := (lists_members t).complete u hu
  rw [same, beq_iff_eq] at hsame
  rw [← hasText_key, ← hsame, hasText_key]
  exact h v hv

/-! ### The members decide -/

/-- Two unions with the same members, however these are nested, ordered or repeated. -/
structure SameMembers (a b : Ty) : Prop where
  left : a.isUnion = true
  right : b.isUnion = true
  mem : ∀ u, u ∈ a.members ↔ u ∈ b.members

namespace SameMembers

variable {a b : Ty} (h : a.SameMembers b)
include h

/-- Unions with the same members have the same one member that counts. -/
theorem concrete?_eq : a.concrete? = b.concrete? := by
  refine Option.ext fun u => ?_
  rw [concrete?_eq_some_iff_of_isUnion h.left, concrete?_eq_some_iff_of_isUnion h.right]
  simp only [h.mem]

/-- Of unions with the same members, both admit that the value is absent or neither does. -/
theorem admitsAbsent_eq : a.admitsAbsent = b.admitsAbsent := by
  rw [Bool.eq_iff_iff, admitsAbsent, admitsAbsent, List.any_eq_true, List.any_eq_true]
  simp only [h.mem]

/-- Of unions with the same members, both have a text for a spelling or neither does. -/
theorem hasText_iff : a.HasText ↔ b.HasText := by
  rw [hasText_iff_members a, hasText_iff_members b]
  simp only [h.mem]

end SameMembers

end Ty

/-! ### Nodes of other types -/

/-- Two nodes are the same but for their types. -/
def Node.Retyped (m n : Node) : Prop := { m with type? := n.type? } = n

/-- Nodes that are the same but for their types are of one kind. -/
theorem Node.Retyped.kind {m n : Node} (h : m.Retyped n) : m.kind = n.kind := by
  rw [← h]

/-- Nodes that are the same but for their types have the same contents in their fields. -/
theorem Node.Retyped.get {m n : Node} (h : m.Retyped n) (f : Field) : m.get f = n.get f := by
  rw [← h]
  rfl

/-- Two runs have the same outcome, and report the same on nodes that are the same but for their
types. -/
abbrev Run.AlikeButTypes {α : Type} (r' r : Run α) : Prop := Run.Alike Node.Retyped Eq Eq r' r

/-- A run is alike itself. -/
theorem Run.AlikeButTypes.refl {α : Type} (r : Run α) : r.AlikeButTypes r := by
  refine ⟨List.forall₂_same.2 fun d _ => ⟨rfl, rfl⟩, ?_⟩
  cases r.outcome with
  | error fault => exact .error rfl
  | ok a => exact .ok rfl

namespace CSharp

open Layout (Indent)

variable {a b : Ty}

/-! ### The spelling of a type -/

/-- There is a message about a union whose spelling is a text. -/
theorem exists_unionProblem (h : a.HasText) : ∃ s, unionProblem a = .ok s := by
  obtain ⟨s, hs⟩ := h
  exact ⟨_, by rw [unionProblem, hs]⟩

/-- The message about a union whose spelling is no text comes to a fault. -/
theorem unionProblem_eq_error (h : ¬a.HasText) : unionProblem a = .error .wrongSort := by
  unfold unionProblem
  split
  · rename_i s hs
    exact absurd ⟨s, hs⟩ h
  · rfl

/-- Unions with the same members are spelled by the same text, and reported together. -/
theorem renderType_of_sameMembers (h : a.SameMembers b) (v : Value) (nullable : Bool) :
    (renderType v a nullable).outcome = (renderType v b nullable).outcome ∧
      (renderType v a nullable).reports.length = (renderType v b nullable).reports.length := by
  cases hb : b.concrete? with
  | some u =>
    rw [renderType_of_concrete? (h.concrete?_eq.trans hb), renderType_of_concrete? hb,
      h.admitsAbsent_eq]
    exact ⟨rfl, rfl⟩
  | none =>
    rw [renderType_of_concrete?_eq_none (h.concrete?_eq.trans hb),
      renderType_of_concrete?_eq_none hb]
    by_cases ha : a.HasText
    · -- the two reports quote the unions as they are written
      obtain ⟨s, hs⟩ := exists_unionProblem ha
      obtain ⟨t, ht⟩ := exists_unionProblem (h.hasText_iff.1 ha)
      rw [hs, ht]
      cases hn : v.node? <;> simp [Run.report, hn, Run.fail, liftM, monadLift,
        MonadLift.monadLift, Run.ofExcept]
    · rw [unionProblem_eq_error ha, unionProblem_eq_error fun hb => ha (h.hasText_iff.2 hb)]
      exact ⟨rfl, rfl⟩

/-! ### Nodes that are the same but for their types -/

section retyped

variable {m n : Node}

/-- What is written for a type has nothing to do with the type of the node that it is asked for. -/
theorem alike_renderType_of_retyped (h : m.Retyped n) (t : Ty) (nullable : Bool) :
    Run.AlikeButTypes (renderType m.toValue t nullable) (renderType n.toValue t nullable) := by
  induction hd : t.depth using Nat.strongRecOn generalizing t nullable with | _ depth ih
  subst hd
  cases ht : t.concrete? with
  | none =>
    rw [renderType_of_concrete?_eq_none ht, renderType_of_concrete?_eq_none ht]
    refine (Run.AlikeButTypes.refl _).bind ?_
    rintro s _ rfl
    have hreport : Run.AlikeButTypes (Run.report m.toValue (.text s))
        (Run.report n.toValue (.text s)) :=
      ⟨.cons ⟨h, rfl⟩ .nil, .ok rfl⟩
    exact hreport.bind fun _ _ _ => Run.AlikeButTypes.refl _
  | some u =>
    rw [renderType_of_concrete? ht, renderType_of_concrete? ht]
    have hmember : Run.AlikeButTypes (memberType m.toValue u) (memberType n.toValue u) := by
      cases u with
      | map e =>
        refine (ih _ (Ty.depth_lt_of_concrete?_map ht) e false rfl).bind ?_
        rintro v _ rfl
        exact Run.AlikeButTypes.refl _
      | array e =>
        refine (ih _ (Ty.depth_lt_of_concrete?_array ht) e false rfl).bind ?_
        rintro v _ rfl
        exact Run.AlikeButTypes.refl _
      | _ => exact Run.AlikeButTypes.refl _
    refine hmember.bind ?_
    rintro v _ rfl
    exact Run.AlikeButTypes.refl _

variable {indent : Indent} {view : View Flags} (h : m.Retyped n)
include h

/-- Object literals of one struct type are rendered alike on nodes that differ in their types. -/
theorem alike_structLiteral_of_retyped (t : Ty) :
    Run.AlikeButTypes (structLiteral indent t view m) (structLiteral indent t view n) := by
  unfold structLiteral
  rw [h.get]
  exact Run.AlikeButTypes.refl _

/-- Object literals are rendered alike as dictionaries on nodes that differ in their types. -/
theorem alike_keyedLiteral_of_retyped (element : Option Ty) :
    Run.AlikeButTypes (keyedLiteral indent element view m)
      (keyedLiteral indent element view n) := by
  have hvalue : Run.AlikeButTypes (valueType m element) (valueType n element) := by
    cases element with
    | none => exact Run.AlikeButTypes.refl _
    | some t => exact alike_renderType_of_retyped h t false
  unfold keyedLiteral
  rw [h.get]
  refine hvalue.bind ?_
  rintro value _ rfl
  exact Run.AlikeButTypes.refl _

/-- Object literals of unknown type are rendered alike on nodes that differ in their types. -/
theorem alike_untypedLiteral_of_retyped :
    Run.AlikeButTypes (untypedLiteral indent view m) (untypedLiteral indent view n) := by
  unfold untypedLiteral
  rw [h.get]
  split
  · exact Run.AlikeButTypes.refl _
  · exact alike_keyedLiteral_of_retyped h none

/-- The rule for object literals asks nothing of their types but which member counts. -/
theorem alike_objectLiteral_of_retyped {a? b? : Option Ty}
    (hm : view.checker.typeOfExpression m.toValue = .ok a?)
    (hn : view.checker.typeOfExpression n.toValue = .ok b?)
    (hsame : a?.bind Ty.concrete? = b?.bind Ty.concrete?) :
    Run.AlikeButTypes
      (Dispatch.objectLiteral (structLiteral indent) (keyedLiteral indent) (untypedLiteral indent)
        view m)
      (Dispatch.objectLiteral (structLiteral indent) (keyedLiteral indent) (untypedLiteral indent)
        view n) := by
  unfold Dispatch.objectLiteral
  rw [hm, hn]
  simp only [liftM, monadLift, MonadLift.monadLift, Run.ofExcept, Run.bind_ok, List.nil_append,
    hsame]
  split
  · exact alike_untypedLiteral_of_retyped h
  · split
    · exact alike_structLiteral_of_retyped h _
    · split
      · exact alike_untypedLiteral_of_retyped h
      · exact alike_keyedLiteral_of_retyped h _

end retyped

/-! ### Everything that is made of a union -/

/-- Unions with the same members have the same one member that counts and admit together that there
is no value. In every place they are spelled by the same text, and as many problems are reported. An
object literal of the one type is rendered as it would be if it were of the other, with the same
reports. -/
theorem rendered_by_members (h : a.SameMembers b) :
    a.concrete? = b.concrete? ∧
    a.admitsAbsent = b.admitsAbsent ∧
    (∀ v nullable, (renderType v a nullable).outcome = (renderType v b nullable).outcome ∧
      (renderType v a nullable).reports.length = (renderType v b nullable).reports.length) ∧
    ∀ (indent : Indent) (preferStruct : Data) (checker : Checker) (c : Flags) (m n : Node),
      m.Retyped n → n.kind = .objectLiteralExpression →
      checker.typeOfExpression m.toValue = .ok (some a) →
      checker.typeOfExpression n.toValue = .ok (some b) →
        Run.AlikeButTypes ((backend indent preferStruct).convert checker c m.toValue)
          ((backend indent preferStruct).convert checker c n.toValue) := by
  refine ⟨h.concrete?_eq, h.admitsAbsent_eq, renderType_of_sameMembers h, ?_⟩
  intro indent preferStruct checker c m n hretyped hkind hm hn
  have hrule : rule? indent n.kind = some (Dispatch.objectLiteral (structLiteral indent)
      (keyedLiteral indent) (untypedLiteral indent)) := by
    rw [hkind]
    rfl
  rw [convert_of_rule hrule, convert_of_rule (hretyped.kind ▸ hrule)]
  exact alike_objectLiteral_of_retyped hretyped hm hn h.concrete?_eq

/-- A table of rates. -/
def rates : Ty := .map (.primitive (.text "number"))

/-- A table of rates that may be missing, as it may be written in a source. -/
def missingRates : Ty := .union [.undefined, .union [rates, .undefined], rates]

/-- A table with one rate in it. -/
def ratesLiteral (t : Ty) : Node :=
  ⟨.objectLiteralExpression, .unknown, .text "", some t, [.list [
    .node .propertyAssignment .unknown (.text "") none [
      .node .identifier .unknown (.text "a") none [.text "a"],
      .node .numericLiteral .unknown (.text "1") none []]]]⟩

/-- A table that is optional twice has the members of one that may be missing, in another nesting
and another order. -/
theorem sameMembers_missingRates : rates.optional.optional.SameMembers missingRates where
  left := rfl
  right := rfl
  mem u := by
    have hleft : rates.optional.optional.members = [rates, .undefined] := by decide
    have hright : missingRates.members = [.undefined, rates] := by decide
    rw [hleft, hright]
    simp [or_comm]

/-- A literal of either type is rendered by the same text, with the same number of reports. -/
theorem rendered_by_members_rates :
    rates.optional.optional.SameMembers missingRates ∧
    rates.optional.optional.concrete? = missingRates.concrete? ∧
    rates.optional.optional.admitsAbsent = missingRates.admitsAbsent ∧
    (∀ v nullable, (renderType v rates.optional.optional nullable).outcome =
        (renderType v missingRates nullable).outcome ∧
      (renderType v rates.optional.optional nullable).reports.length =
        (renderType v missingRates nullable).reports.length) ∧
    Run.AlikeButTypes
      ((backend (.blanks 4) (.bool true)).convert .recorded {}
        (ratesLiteral rates.optional.optional).toValue)
      ((backend (.blanks 4) (.bool true)).convert .recorded {}
        (ratesLiteral missingRates).toValue) := by
  obtain ⟨hconcrete, habsent, htype, hliteral⟩ := rendered_by_members sameMembers_missingRates
  exact ⟨sameMembers_missingRates, hconcrete, habsent, htype,
    hliteral (.blanks 4) (.bool true) .recorded {} _ _ rfl rfl rfl rfl⟩

end CSharp

end CodeSample

import CodeSample.Ty.Codec
import CodeSample.Ty.Describe

/-!
# Types in the exchanged form and back

Writing a type leaves out an alias that is null and a struct mark that is false; reading puts both
back. So a type that was read once is written and read again without a change.

* `Ty.isWhole` says that every union in a type has at least two members and that all of it can be
  spelled; `isWhole_of_ofData`: what is read is whole;
* `exists_toData`: what is whole can be written, and is read back as it was;
* `read_of_written`: both ways together.
-/

namespace CodeSample

/-- Two steps that give an answer do so one after the other. -/
theorem Fault.exists_of_bind {α β : Type} {x : Except Fault α} {next : α → Except Fault β} {b : β}
    (h : x >>= next = .ok b) : ∃ a, x = .ok a ∧ next a = .ok b := by
  cases x with
  | error fault => cases h
  | ok a => exact ⟨a, rfl, h⟩

namespace Ty

mutual

/-- Whether every union in a type has at least two members and all of it can be spelled. -/
def isWhole : Ty → Bool
  | primitive _ => true
  | named .. => true
  | array t => isWhole t
  | map t => isWhole t
  | union ts => 2 ≤ ts.length && areWhole ts
  | unspelled => false

/-- Whether several types are whole. -/
def areWhole : List Ty → Bool
  | [] => true
  | t :: ts => isWhole t && areWhole ts

end

/-! ### What is read -/

/-- The members read from texts are whole. -/
theorem areWhole_of_ofTexts {ss : List String} {ts : List Ty} (h : ofTexts ss = .ok ts) :
    areWhole ts = true := by
  cases ss with
  | nil =>
    obtain rfl := Except.ok.inj h
    rw [areWhole]
  | cons s ss => cases h

mutual

/-- A type that was read is whole. -/
theorem isWhole_of_ofData : ∀ {d : Data} {t : Ty}, ofData d = .ok t → t.isWhole = true
  | .object ms, t, h => by
    rw [ofData] at h
    split at h
    · obtain ⟨name, _, h⟩ := Fault.exists_of_bind h
      obtain rfl := Except.ok.inj h
      rw [isWhole]
    · obtain ⟨name, _, h⟩ := Fault.exists_of_bind h
      obtain rfl := Except.ok.inj h
      rw [isWhole]
    · obtain ⟨element, helement, h⟩ := Fault.exists_of_bind h
      obtain rfl := Except.ok.inj h
      rw [isWhole]
      exact isWhole_of_ofElement helement
    · obtain ⟨element, helement, h⟩ := Fault.exists_of_bind h
      obtain rfl := Except.ok.inj h
      rw [isWhole]
      exact isWhole_of_ofElement helement
    · obtain ⟨members, hmembers, h⟩ := Fault.exists_of_bind h
      unfold unionOf at h
      split at h
      · cases h
      · rename_i hlength
        obtain rfl := Except.ok.inj h
        rw [isWhole, areWhole_of_ofUnion hmembers, Bool.and_true]
        exact decide_eq_true (by omega)
    · cases h
  | .null, _, h | .bool _, _, h | .int _, _, h | .float _, _, h | .text _, _, h
  | .list _, _, h => by
    rw [ofData] at h
    · cases h
    · simp

/-- The element type read from the members of an object is whole. -/
theorem isWhole_of_ofElement {kind : String} :
    ∀ {ms : List (String × Data)} {t : Ty}, ofElement kind ms = .ok t → t.isWhole = true
  | [], _, h => by
    rw [ofElement] at h
    cases h
  | (k, d) :: ms, t, h => by
    rw [ofElement] at h
    split at h
    · exact isWhole_of_ofData h
    · exact isWhole_of_ofElement h

/-- The members of a union read from the members of an object are whole. -/
theorem areWhole_of_ofUnion :
    ∀ {ms : List (String × Data)} {ts : List Ty}, ofUnion ms = .ok ts → areWhole ts = true
  | [], _, h => by
    rw [ofUnion] at h
    cases h
  | (k, d) :: ms, ts, h => by
    rw [ofUnion] at h
    split at h
    · exact areWhole_of_ofEnumerable h
    · exact areWhole_of_ofUnion h

/-- They are whole whatever the datum is that they are read from. -/
theorem areWhole_of_ofEnumerable :
    ∀ {d : Data} {ts : List Ty}, ofEnumerable d = .ok ts → areWhole ts = true
  | .list ds, ts, h => by
    rw [ofEnumerable] at h
    exact areWhole_of_ofItems h
  | .text s, ts, h => by
    rw [ofEnumerable] at h
    exact areWhole_of_ofTexts h
  | .object ms, ts, h => by
    rw [ofEnumerable] at h
    exact areWhole_of_ofTexts h
  | .null, _, h | .bool _, _, h | .int _, _, h | .float _, _, h => by
    rw [ofEnumerable] at h
    · cases h
    all_goals simp

/-- The types read from the items of a list are whole. -/
theorem areWhole_of_ofItems :
    ∀ {ds : List Data} {ts : List Ty}, ofItems ds = .ok ts → areWhole ts = true
  | [], ts, h => by
    rw [ofItems] at h
    obtain rfl := Except.ok.inj h
    rw [areWhole]
  | d :: ds, ts, h => by
    rw [ofItems] at h
    obtain ⟨u, hu, h⟩ := Fault.exists_of_bind h
    obtain ⟨us, hus, h⟩ := Fault.exists_of_bind h
    obtain rfl := Except.ok.inj h
    rw [areWhole, isWhole_of_ofData hu, areWhole_of_ofItems hus]
    rfl

end

/-! ### What is written -/

/-- A user-declared type is read back from its name, its alias and its mark. -/
theorem ofData_named (name aliasName : Data) (struct : Bool) :
    ofData (tagged "named" (("name", name) :: ((if aliasName = .null then []
      else [("alias", aliasName)]) ++ if struct then [("struct", .bool true)] else []))) =
        .ok (named name aliasName struct) := by
  by_cases halias : aliasName = .null
  · subst halias
    cases struct <;> rfl
  · rw [if_neg halias]
    cases struct <;> rfl

mutual

/-- A whole type can be written, and is read back from what is written. -/
theorem exists_toData : ∀ t : Ty, t.isWhole = true → ∃ d, t.toData = .ok d ∧ ofData d = .ok t
  | primitive name, _ => by
    refine ⟨tagged "primitive" [("name", name)], by rw [toData], ?_⟩
    rfl
  | named name aliasName struct, _ => by
    refine ⟨_, by rw [toData], ?_⟩
    exact ofData_named name aliasName struct
  | array t, h => by
    rw [isWhole] at h
    obtain ⟨d, hd, hread⟩ := exists_toData t h
    refine ⟨tagged "array" [("element", d)], ?_, ?_⟩
    · rw [toData, hd]
      rfl
    · simp [tagged, ofData, textMember?, Data.get?, ofElement, hread, bind, Except.bind, pure,
        Except.pure]
  | map t, h => by
    rw [isWhole] at h
    obtain ⟨d, hd, hread⟩ := exists_toData t h
    refine ⟨tagged "map" [("element", d)], ?_, ?_⟩
    · rw [toData, hd]
      rfl
    · simp [tagged, ofData, textMember?, Data.get?, ofElement, hread, bind, Except.bind, pure,
        Except.pure]
  | union ts, h => by
    rw [isWhole, Bool.and_eq_true, decide_eq_true_eq] at h
    obtain ⟨ds, hds, hread⟩ := exists_toItems ts h.2
    refine ⟨tagged "union" [("members", .list ds)], ?_, ?_⟩
    · rw [toData, hds]
      rfl
    · have hlength : ¬ ts.length < 2 := by omega
      simp [tagged, ofData, textMember?, Data.get?, ofUnion, ofEnumerable, hread, unionOf, hlength,
        bind, Except.bind]
  | unspelled, h => by
    rw [isWhole] at h
    cases h

/-- Whole types can be written as a list, and are read back from it. -/
theorem exists_toItems : ∀ ts : List Ty, areWhole ts = true →
    ∃ ds, toItems ts = .ok ds ∧ ofItems ds = .ok ts
  | [], _ => ⟨[], by rw [toItems], by rw [ofItems]⟩
  | t :: ts, h => by
    rw [areWhole, Bool.and_eq_true] at h
    obtain ⟨d, hd, hread⟩ := exists_toData t h.1
    obtain ⟨ds, hds, hreads⟩ := exists_toItems ts h.2
    refine ⟨d :: ds, ?_, ?_⟩
    · rw [toItems, hd, hds]
      rfl
    · rw [ofItems, hread, hreads]
      rfl

end

/-! ### Both ways -/

/-- What is written of a whole type is read as that type again. What was read from any datum is
whole, and is not changed by being written and read once more. -/
theorem read_of_written :
    (∀ t : Ty, t.isWhole = true → t.toData >>= ofData = .ok t) ∧
      ∀ (d : Data) (t : Ty), ofData d = .ok t →
        t.isWhole = true ∧ ofData d >>= toData >>= ofData = ofData d := by
  have hwhole : ∀ t : Ty, t.isWhole = true → t.toData >>= ofData = .ok t := by
    intro t ht
    obtain ⟨d, hd, hread⟩ := exists_toData t ht
    rw [hd]
    exact hread
  refine ⟨hwhole, ?_⟩
  intro d t h
  refine ⟨isWhole_of_ofData h, ?_⟩
  rw [h]
  exact hwhole t (isWhole_of_ofData h)

/-- A map of prices: its unions are nested, one alias is the empty text and another one null. What
is read holds a member that no type has, and numbers for marks. -/
theorem read_of_written_prices :
    let price := union [named (.text "Money") (.text "") false,
      array (union [primitive (.text "number"), Ty.undefined])]
    let d := Data.object [("members", .list [
        .object [("name", .text "Money"), ("alias", .text ""), ("kind", .text "named"),
          ("struct", .int 0)],
        .object [("kind", .text "array"), ("length", .int 3), ("element", .object [
          ("kind", .text "union"), ("members", .list [
            .object [("kind", .text "primitive"), ("name", .text "number")],
            .object [("kind", .text "named"), ("name", .text "Gap"), ("alias", .null),
              ("struct", .text "no")]])])]]),
      ("kind", .text "union")]
    let read := union [named (.text "Money") (.text "") false,
      array (union [primitive (.text "number"), named (.text "Gap") .null true])]
    ((map price).isWhole = true ∧ (map price).toData >>= ofData = .ok (map price)) ∧
      ofData d = .ok read ∧ read.isWhole = true ∧
      ofData d >>= toData >>= ofData = ofData d := by
  refine ⟨⟨rfl, read_of_written.1 _ rfl⟩, rfl, ?_⟩
  exact read_of_written.2 _ _ rfl

end Ty

end CodeSample

import CodeSample.Proofs.Indentation
import CodeSample.Proofs.SourceText
import CodeSample.Text.Literal
import CodeSample.Text.Uppercase

/-!
# Texts that do not disturb the layout

Texts that stay on their line wherever they are written, and texts that may stand at the start of
one.

* `Text.isQuiet` are the characters that neither break a line nor are braces, `Text.isSolid` those
  that are neither white space nor braces;
* `Text.isTidy` are the texts that consist of the latter, `Text.IsTerm` those that may stand at the
  start of a line;
* `mem_upper`: what a character maps to in upper case is solid, if the character changes at all;
* `isTidy_upperFirst`, `isTerm_quote`, `consists_escapeInterpolated`: capitalising and quoting keep
  the layout undisturbed.
-/

namespace CodeSample

open Layout (Fragment)

namespace Text

/-! ### Tidy texts -/

/-- Whether a character neither breaks a line nor is a brace. -/
def isQuiet (c : Char) : Bool := c != '\n' && c != '\x7b' && c != '\x7d'

/-- Whether a character is neither white space nor a brace. -/
def isSolid (c : Char) : Bool := !isBlank c && c != '\x7b' && c != '\x7d'

/-- Whether a text is not empty, and holds neither white space nor braces. -/
def isTidy (s : String) : Bool := s != "" && s.toList.all isSolid

/-- A text that may stand at the start of a line. -/
def IsTerm (s : String) : Prop := Consists isQuiet s ∧ Leads s

instance (p : Char → Bool) (s : String) : Decidable (Consists p s) :=
  decidable_of_iff (s.toList.all p = true) List.all_eq_true

/-- A solid character is quiet. -/
theorem isQuiet_of_isSolid {c : Char} (h : isSolid c = true) : isQuiet c = true := by
  have hnewline : c ≠ '\n' := by
    rintro rfl
    exact absurd h (by decide)
  unfold isSolid at h
  simp only [Bool.and_eq_true, bne_iff_ne] at h
  simp [isQuiet, hnewline, h.1.2, h.2]

/-- A text is tidy if it has a first character and all of them are solid. -/
theorem isTidy_iff {s : String} : isTidy s = true ↔
    ∃ c rest, s.toList = c :: rest ∧ isSolid c = true ∧ ∀ d ∈ rest, isSolid d = true := by
  unfold isTidy
  rw [Bool.and_eq_true, bne_iff_ne, List.all_eq_true]
  constructor
  · rintro ⟨hne, hall⟩
    cases hs : s.toList with
    | nil => exact absurd (String.toList_eq_nil_iff.1 hs) hne
    | cons c rest =>
      rw [hs, List.forall_mem_cons] at hall
      exact ⟨c, rest, rfl, hall⟩
  · rintro ⟨c, rest, hs, hall⟩
    refine ⟨?_, ?_⟩
    · rintro rfl
      cases hs
    · rw [hs, List.forall_mem_cons]
      exact hall

/-- A text whose first character is solid may stand at the start of a line. -/
theorem leads_of_isSolid {s : String} {c : Char} {rest : List Char} (hs : s.toList = c :: rest)
    (hc : isSolid c = true) : Leads s := by
  refine ⟨c, rest, hs, ?_⟩
  unfold isSolid at hc
  simp only [Bool.and_eq_true, Bool.not_eq_true'] at hc
  exact hc.1.1

/-- A tidy text may stand at the start of a line. -/
theorem isTerm_of_isTidy {s : String} (h : isTidy s = true) : IsTerm s := by
  obtain ⟨c, rest, hs, hc, hrest⟩ := isTidy_iff.1 h
  refine ⟨fun d hd => isQuiet_of_isSolid ?_, leads_of_isSolid hs hc⟩
  rw [hs, List.mem_cons] at hd
  rcases hd with rfl | hd
  · exact hc
  · exact hrest d hd

/-- What may stand at the start of a line may do so with quiet characters behind it. -/
theorem IsTerm.append {s t : String} (hs : IsTerm s) (ht : Consists isQuiet t) : IsTerm (s ++ t) :=
  ⟨hs.1.append ht, hs.2.append t⟩

/-! ### Phrases -/

/-- Quiet characters break no line. -/
theorem newline_not_mem {s : String} (h : Consists isQuiet s) : '\n' ∉ s.toList :=
  fun hmem => absurd (h _ hmem) (by decide)

/-- Quiet characters open no brace and close none. -/
theorem balanced_of_consists {s : String} (h : Consists isQuiet s) : Balanced s.toList :=
  balanced_of_not_mem (fun hmem => absurd (h _ hmem) (by decide))
    fun hmem => absurd (h _ hmem) (by decide)

/-- A text of quiet characters is a phrase. -/
theorem isPhrase_of_consists {s : String} (h : Consists isQuiet s) : (Fragment.text s).IsPhrase :=
  Fragment.isPhrase_text (newline_not_mem h) (balanced_of_consists h)

/-- A text that may stand at the start of a line is a term. -/
theorem IsTerm.isTerm {s : String} (h : IsTerm s) : (Fragment.text s).IsTerm where
  toIsPhrase := isPhrase_of_consists h.1
  leads := by
    rw [Fragment.flat]
    exact h.2

/-! ### Upper case -/

/-- The code points of white space and braces, first and last of each run. -/
def looseRuns : List (Nat × Nat) := [
  (9, 13), (28, 32), (0x7b, 0x7b), (0x7d, 0x7d), (0x85, 0x85), (0xa0, 0xa0), (0x1680, 0x1680),
  (0x2000, 0x200a), (0x2028, 0x2029), (0x202f, 0x202f), (0x205f, 0x205f), (0x3000, 0x3000)]

/-- A code point outside of these runs. -/
def IsOutside (n : Int) : Prop := ∀ r ∈ looseRuns, n < r.1 ∨ r.2 < n

/-- A character whose code point is neither one of white space nor one of braces is solid. -/
theorem isSolid_of_isOutside {c : Char} (h : IsOutside c.toNat) : isSolid c = true := by
  have hbrace {d : Char} (hne : c.toNat ≠ d.toNat) : c ≠ d :=
    fun heq => hne (congrArg Char.toNat heq)
  simp only [IsOutside, looseRuns, List.forall_mem_cons, List.not_mem_nil, false_implies,
    implies_true, and_true] at h
  have hopening : c ≠ '\x7b' := hbrace (by rw [show '\x7b'.toNat = 0x7b from rfl]; omega)
  have hclosing : c ≠ '\x7d' := hbrace (by rw [show '\x7d'.toNat = 0x7d from rfl]; omega)
  have hblank : isBlank c = false := by
    unfold isBlank
    simp only [Bool.or_eq_false_iff, Bool.and_eq_false_iff, decide_eq_false_iff_not,
      beq_eq_false_iff_ne]
    omega
  simp [isSolid, hblank, hopening, hclosing]

/-- Characters by their code points; what is no code point becomes the null character. -/
theorem ofNat_cases (n : Nat) : (Char.ofNat n).toNat = n ∨ Char.ofNat n = '\x00' := by
  unfold Char.ofNat
  by_cases h : n.isValidChar
  · rw [dif_pos h]
    exact Or.inl rfl
  · rw [dif_neg h]
    exact Or.inr rfl

/-- A code point that is neither one of white space nor one of braces is a solid character. -/
theorem isSolid_ofNat {n : Nat} (h : IsOutside n) : isSolid (Char.ofNat n) = true := by
  rcases ofNat_cases n with hcode | hnull
  · refine isSolid_of_isOutside ?_
    rwa [hcode]
  · rw [hnull]
    decide

/-- No run of characters maps to white space or braces. -/
theorem isOutside_of_upperRuns : ∀ r ∈ upperRuns, 0 ≤ r.first + r.offset ∧
    ∀ l ∈ looseRuns, (r.last + r.offset < l.1 ∨ (l.2 : Int) < r.first + r.offset) := by
  decide +kernel

/-- No entry of the table of upper cases is empty, and no code point in it is loose. -/
theorem isOutside_of_upperExpansions : ∀ e ∈ upperExpansions, e.2 ≠ [] ∧
    ∀ n ∈ e.2, ∀ l ∈ looseRuns, ((n : Int) < l.1 ∨ (l.2 : Int) < n) := by
  decide +kernel

/-- What a character maps to stands in one of the tables, unless the character stands in neither. -/
theorem cases_of_mem_upper {c d : Char} (h : d ∈ upper c) :
    (∃ e ∈ upperExpansions, ∃ n ∈ e.2, d = Char.ofNat n) ∨
      (∃ r ∈ upperRuns, r.covers c.toNat = true ∧ d = Char.ofNat (c.toNat + r.offset).toNat) ∨
      (∀ r ∈ upperRuns, r.covers c.toNat = false) ∧ d = c := by
  unfold upper at h
  split at h
  · rename_i expansion hlookup
    obtain ⟨n, hn, rfl⟩ := List.mem_map.1 h
    obtain ⟨l₁, l₂, hmem, -⟩ := List.lookup_eq_some_iff.1 hlookup
    exact Or.inl ⟨(c.toNat, expansion), by rw [hmem]; simp, n, hn, rfl⟩
  · split at h
    · rename_i r hr
      have hcovers := List.find?_some hr
      exact Or.inr (Or.inl ⟨r, List.mem_of_find?_eq_some hr, hcovers, List.mem_singleton.1 h⟩)
    · rename_i hnone
      refine Or.inr (Or.inr ⟨fun r hr => ?_, List.mem_singleton.1 h⟩)
      exact Bool.eq_false_iff.2 (List.find?_eq_none.1 hnone r hr)

/-- What a character maps to, if it changes at all, is neither white space nor a brace. -/
theorem mem_upper {c d : Char} (h : d ∈ upper c) : d = c ∨ isSolid d = true := by
  rcases cases_of_mem_upper h with ⟨e, he, n, hn, rfl⟩ | ⟨r, hr, hcovers, rfl⟩ | ⟨-, rfl⟩
  · exact Or.inr (isSolid_ofNat ((isOutside_of_upperExpansions e he).2 n hn))
  · right
    unfold CaseRun.covers at hcovers
    simp only [Bool.and_eq_true, decide_eq_true_eq] at hcovers
    refine isSolid_ofNat fun l hl => ?_
    obtain ⟨hpositive, houtside⟩ := isOutside_of_upperRuns r hr
    have := houtside l hl
    omega
  · exact Or.inl rfl

/-- Every character has something for its upper case. -/
theorem upper_ne_nil (c : Char) : upper c ≠ [] := by
  unfold upper
  split
  · rename_i expansion hlookup
    obtain ⟨l₁, l₂, hmem, -⟩ := List.lookup_eq_some_iff.1 hlookup
    have := isOutside_of_upperExpansions (c.toNat, expansion) (by rw [hmem]; simp)
    simpa using this.1
  · split
    · simp
    · simp

/-- Capitalising brings in no characters but such as are neither white space nor braces. -/
theorem consists_upperFirst {p : Char → Bool} (hp : ∀ c, isSolid c = true → p c = true) {s : String}
    (h : Consists p s) : Consists p (upperFirst s) := by
  unfold upperFirst
  cases hs : s.toList with
  | nil => exact fun d hd => absurd hd (by simp)
  | cons c rest =>
    intro d hd
    simp only [String.toList_ofList, List.mem_append] at hd
    rcases hd with hd | hd
    · rcases mem_upper hd with rfl | hd
      · exact h d (by rw [hs]; exact List.mem_cons_self)
      · exact hp d hd
    · exact h d (by rw [hs]; exact List.mem_cons_of_mem c hd)

/-- Capitalising a text that is not empty leaves it so. -/
theorem upperFirst_ne_empty {s : String} (h : s ≠ "") : upperFirst s ≠ "" := by
  unfold upperFirst
  cases hs : s.toList with
  | nil => exact absurd (String.toList_eq_nil_iff.1 hs) h
  | cons c rest =>
    rw [← String.toList_inj.ne, String.toList_ofList]
    exact List.append_ne_nil_of_left_ne_nil (upper_ne_nil c) rest

/-- Capitalising keeps a text tidy. -/
theorem isTidy_upperFirst {s : String} (h : isTidy s = true) : isTidy (upperFirst s) = true := by
  unfold isTidy at *
  rw [Bool.and_eq_true, bne_iff_ne, List.all_eq_true] at *
  exact ⟨upperFirst_ne_empty h.1, consists_upperFirst (fun _ hc => hc) h.2⟩

/-! ### Literals -/

/-- Escaping a quiet character gives quiet characters. -/
theorem isQuiet_of_mem_escapeChar {c d : Char} (hc : isQuiet c = true) (h : d ∈ escapeChar c) :
    isQuiet d = true := by
  have hescapes : ∀ x ∈ escapes, isQuiet x.2 = true := by decide
  rcases escapeChar_cases c with ⟨e, he, hescape⟩ | ⟨-, hescape⟩
  · rw [hescape, List.mem_cons, List.mem_singleton] at h
    rcases h with rfl | rfl
    · decide
    · exact hescapes (c, d) he
  · rw [hescape, List.mem_singleton] at h
    exact h ▸ hc

/-- Escaping quiet characters gives quiet characters. -/
theorem isQuiet_of_mem_escapeChars {cs : List Char} (hcs : ∀ c ∈ cs, isQuiet c = true) :
    ∀ d ∈ escapeChars cs, isQuiet d = true := by
  intro d hd
  rw [escapeChars_eq_flatMap] at hd
  obtain ⟨c, hc, hd⟩ := List.mem_flatMap.1 hd
  exact isQuiet_of_mem_escapeChar (hcs c hc) hd

/-- A quiet text in quotes may stand at the start of a line. -/
theorem isTerm_quote {s : String} (h : Consists isQuiet s) : IsTerm (quote s) := by
  refine ⟨?_, Leads.append (Leads.append ?_ _) _⟩
  · refine Consists.append (Consists.append (by decide) ?_) (by decide)
    intro d hd
    rw [escape, String.toList_ofList] at hd
    exact isQuiet_of_mem_escapeChars h d hd
  · exact ⟨'"', [], rfl, by decide⟩

/-- A quiet text is quiet when it is escaped for an interpolated string: it has no braces to double.
-/
theorem consists_escapeInterpolated {s : String} (h : Consists isQuiet s) :
    Consists isQuiet (escapeInterpolated s) := by
  have hescaped := isQuiet_of_mem_escapeChars h
  intro d hd
  unfold escapeInterpolated doubleBraces at hd
  rw [String.toList_ofList,
    replaceChar_of_not_mem fun hmem => absurd (hescaped _ hmem) (by decide),
    replaceChar_of_not_mem fun hmem => absurd (hescaped _ hmem) (by decide)] at hd
  exact hescaped d hd

end Text

end CodeSample

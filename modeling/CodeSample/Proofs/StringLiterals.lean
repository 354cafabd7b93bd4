import CodeSample.Text.Literal

/-!
# String literals can be read back

A text is escaped character by character, and every escape starts with a backslash, which is itself
escaped where it stands for itself. So a literal ends where it should, and what stands in it tells
which text it was made of.

* `controls` are the characters that may not stand in a literal, and `isClosed` says that no
  quotation mark among some characters would end one;
* `unescape?_escapeChars`, `isClosed_escapeChars`, `not_mem_escapeChars`: the one, the other and the
  third hold of every escaped text, by induction along its characters;
* `quote_decodes` is all of it, for complete literals.
-/

namespace CodeSample.Text

/-- The characters that may not stand in a literal: line feed, carriage return, tab, form feed,
vertical tab and the null character. -/
def controls : List Char := ['\n', '\r', '\t', '\x0c', '\x0b', '\x00']

/-- Whether every quotation mark among some characters is escaped. A backslash escapes the character
behind it. -/
def isClosed : List Char → Bool
  | [] => true
  | [c] => c != '"'
  | c :: d :: cs => if c = '\\' then isClosed cs else c != '"' && isClosed (d :: cs)

/-! ### One character -/

/-- A character that is neither a backslash nor a quote does not count for the closing. -/
theorem isClosed_cons {c : Char} (hslash : c ≠ '\\') (hquote : c ≠ '"') (cs : List Char) :
    isClosed (c :: cs) = isClosed cs := by
  cases cs with
  | nil => simp [isClosed, hquote]
  | cons d cs => simp [isClosed, hslash, hquote]

/-- A character that is no backslash stands for itself. -/
theorem unescape?_cons {c : Char} (hslash : c ≠ '\\') (cs : List Char) :
    unescape? (c :: cs) = (unescape? cs).map (c :: ·) := by
  cases cs with
  | nil => simp [unescape?, hslash]
  | cons d cs => simp [unescape?, hslash]

/-- Every escape is read back as the character that it was made of. -/
theorem unescapeChar?_of_mem {c e : Char} (h : (c, e) ∈ escapes) : unescapeChar? e = some c := by
  have hall : ∀ x ∈ escapes, unescapeChar? x.2 = some x.1 := by decide
  exact hall (c, e) h

/-- A character that is not escaped is no backslash and no quotation mark. -/
theorem ne_of_not_mem_escapes {c : Char} (h : c ∉ escapes.map Prod.fst) :
    c ≠ '\\' ∧ c ≠ '"' := by
  constructor <;>
  · rintro rfl
    exact h (by decide)

/-! ### Escaped texts -/

/-- Escaped characters are read back as the characters. -/
theorem unescape?_escapeChars (cs : List Char) : unescape? (escapeChars cs) = some cs := by
  induction cs with
  | nil => rfl
  | cons c cs ih =>
    rw [escapeChars_cons]
    rcases escapeChar_cases c with ⟨e, he, hescape⟩ | ⟨hplain, hescape⟩
    · rw [hescape, List.cons_append, List.singleton_append, unescape?, unescapeChar?_of_mem he, ih]
      rfl
    · rw [hescape, List.singleton_append, unescape?_cons (ne_of_not_mem_escapes hplain).1, ih]
      rfl

/-- No quote among escaped characters ends the literal. -/
theorem isClosed_escapeChars (cs : List Char) : isClosed (escapeChars cs) = true := by
  induction cs with
  | nil => rfl
  | cons c cs ih =>
    rw [escapeChars_cons]
    rcases escapeChar_cases c with ⟨e, -, hescape⟩ | ⟨hplain, hescape⟩
    · rw [hescape, List.cons_append, List.singleton_append, isClosed, if_pos rfl, ih]
    · obtain ⟨hslash, hquote⟩ := ne_of_not_mem_escapes hplain
      rw [hescape, List.singleton_append, isClosed_cons hslash hquote, ih]

/-- Control characters are escaped, and stand behind no backslash. -/
theorem not_mem_escapeChars {d : Char} (hd : d ∈ controls) (cs : List Char) :
    d ∉ escapeChars cs := by
  have hescaped : ∀ d ∈ controls, d ∈ escapes.map Prod.fst := by simp [controls, escapes]
  have hslash : '\\' ∉ controls := by decide
  have hbehind : ∀ x ∈ escapes, x.2 ∉ controls := by decide
  induction cs with
  | nil => simp [escapeChars_eq_flatMap]
  | cons c cs ih =>
    rw [escapeChars_cons, List.mem_append, not_or]
    refine ⟨fun hmem => ?_, ih⟩
    rcases escapeChar_cases c with ⟨e, he, hescape⟩ | ⟨hplain, hescape⟩
    · rw [hescape, List.mem_cons, List.mem_singleton] at hmem
      rcases hmem with rfl | rfl
      · exact hslash hd
      · exact hbehind (c, d) he hd
    · rw [hescape, List.mem_singleton] at hmem
      exact hplain (hmem ▸ hescaped d hd)

/-! ### Complete literals -/

/-- Different texts are escaped as different ones. -/
theorem escape_injective : Function.Injective escape := by
  intro s t h
  have hchars : escapeChars s.toList = escapeChars t.toList := by
    simpa [escape] using congrArg String.toList h
  have hsome := congrArg unescape? hchars
  rw [unescape?_escapeChars, unescape?_escapeChars, Option.some.injEq] at hsome
  exact String.toList_inj.1 hsome

/-- A literal is a text in quotation marks that is escaped character by character, all at once. No
control character stands in it and no quotation mark that is not escaped, so that it stands on one
line and ends with its last character. Reading the escapes gives the text back, and different texts
have different literals. -/
theorem quote_decodes :
    (∀ s : String, quote s = "\"" ++ escape s ++ "\"" ∧
      (escape s).toList = s.toList.flatMap escapeChar ∧
      (∀ c ∈ controls, c ∉ (escape s).toList) ∧ isClosed (escape s).toList = true ∧
      unescape? (escape s).toList = some s.toList) ∧
    Function.Injective quote := by
  constructor
  · intro s
    have hchars : (escape s).toList = escapeChars s.toList := by simp [escape]
    rw [hchars]
    exact ⟨rfl, escapeChars_eq_flatMap _, fun c hc => not_mem_escapeChars hc _,
      isClosed_escapeChars _, unescape?_escapeChars _⟩
  · intro s t h
    unfold quote at h
    rw [String.append_left_inj, String.append_right_inj] at h
    exact escape_injective h

/-- A backslash in front of a letter is no escape of that letter. -/
example : quote "\\n\n\"" = "\"\\\\n\\n\\\"\"" := by decide

end CodeSample.Text

/-!
# String literals of the C family

A string literal stands in double quotes, and eight characters inside it are escaped by a backslash
and a letter, digit or mark. An interpolated string doubles its braces besides.

* `escape` replaces the eight characters one after the other, the backslash first;
* `escapeChars_eq_flatMap`: the outcome is that of replacing every character once, all at the same
  time;
* `unescape?` reads the escapes back.
-/

namespace CodeSample.Text

/-! ### Escapes -/

/-- The escaped characters and what follows the backslash, in the order of replacement. -/
def escapes : List (Char × Char) :=
  [('\\', '\\'), ('"', '"'), ('\n', 'n'), ('\t', 't'), ('\r', 'r'), ('\x0c', 'f'), ('\x0b', 'v'),
    ('\x00', '0')]

/-- Every occurrence of a character replaced by a text. -/
def replaceChar (c : Char) (r : List Char) (cs : List Char) : List Char :=
  cs.flatMap fun d => if d = c then r else [d]

/-- The characters of a text, escaped. -/
def escapeChars (cs : List Char) : List Char :=
  escapes.foldl (fun cs e => replaceChar e.1 ['\\', e.2] cs) cs

/-- The text between the quotes of a literal. -/
def escape (s : String) : String := String.ofList (escapeChars s.toList)

/-- A complete literal. -/
def quote (s : String) : String := "\"" ++ escape s ++ "\""

/-! ### Interpolated strings -/

/-- Braces doubled. -/
def doubleBraces (cs : List Char) : List Char :=
  replaceChar '\x7d' ['\x7d', '\x7d'] (replaceChar '\x7b' ['\x7b', '\x7b'] cs)

/-- The text of an interpolated string between its holes. -/
def escapeInterpolated (s : String) : String :=
  String.ofList (doubleBraces (escapeChars s.toList))

/-! ### One replacement for all -/

/-- What one character becomes. -/
def escapeChar (c : Char) : List Char :=
  match escapes.lookup c with
  | some e => ['\\', e]
  | none => [c]

/-- A character is replaced in each part of a text. -/
theorem replaceChar_append (c : Char) (r cs ds : List Char) :
    replaceChar c r (cs ++ ds) = replaceChar c r cs ++ replaceChar c r ds := by
  simp [replaceChar]

/-- A text without the character stays as it is. -/
theorem replaceChar_of_not_mem {c : Char} {r cs : List Char} (h : c ∉ cs) :
    replaceChar c r cs = cs := by
  induction cs with
  | nil => rfl
  | cons d ds ih =>
    have hd : ¬d = c := fun hdc => h (by simp [hdc])
    have hds : c ∉ ds := fun hc => h (by simp [hc])
    simpa [replaceChar, hd] using ih hds

/-- The parts of a text are escaped by themselves. -/
theorem escapeChars_append (cs ds : List Char) :
    escapeChars (cs ++ ds) = escapeChars cs ++ escapeChars ds := by
  simp [escapeChars, escapes, replaceChar_append]

/-- A single character is escaped as `escapeChar` says. -/
theorem escapeChars_singleton (c : Char) : escapeChars [c] = escapeChar c := by
  by_cases h : c ∈ escapes.map Prod.fst
  · simp only [escapes, List.map_cons, List.map_nil, List.mem_cons, List.not_mem_nil,
      or_false] at h
    rcases h with rfl | rfl | rfl | rfl | rfl | rfl | rfl | rfl <;> decide
  · simp only [escapes, List.map_cons, List.map_nil, List.mem_cons, List.not_mem_nil,
      or_false, not_or] at h
    obtain ⟨h1, h2, h3, h4, h5, h6, h7, h8⟩ := h
    have lookup : escapes.lookup c = none := by
      simp [escapes, List.lookup_cons, beq_eq_false_iff_ne.mpr, h1, h2, h3, h4, h5, h6, h7, h8]
    rw [escapeChar, lookup]
    simp [escapeChars, escapes, replaceChar, h1, h2, h3, h4, h5, h6, h7, h8]

/-- Escaping one after the other comes to the same as replacing all characters at once. -/
theorem escapeChars_eq_flatMap (cs : List Char) : escapeChars cs = cs.flatMap escapeChar := by
  induction cs with
  | nil => rfl
  | cons c cs ih =>
    rw [show c :: cs = [c] ++ cs from rfl, escapeChars_append, escapeChars_singleton, ih]
    rfl

/-- Characters are escaped one by one. -/
theorem escapeChars_cons (c : Char) (cs : List Char) :
    escapeChars (c :: cs) = escapeChar c ++ escapeChars cs := by
  rw [escapeChars_eq_flatMap, escapeChars_eq_flatMap, List.flatMap_cons]

/-- A character is escaped as the table says, or left as it is. -/
theorem escapeChar_cases (c : Char) :
    (∃ e, (c, e) ∈ escapes ∧ escapeChar c = ['\\', e]) ∨
      c ∉ escapes.map Prod.fst ∧ escapeChar c = [c] := by
  unfold escapeChar
  cases h : escapes.lookup c with
  | some e =>
    obtain ⟨front, rest, hsplit, -⟩ := List.lookup_eq_some_iff.1 h
    exact Or.inl ⟨e, by rw [hsplit]; simp, rfl⟩
  | none =>
    refine Or.inr ⟨fun hmem => ?_, rfl⟩
    obtain ⟨entry, hentry, rfl⟩ := List.mem_map.1 hmem
    simpa using List.lookup_eq_none_iff.1 h entry hentry

/-! ### Reading back -/

/-- The character that an escape stands for. -/
def unescapeChar? (e : Char) : Option Char :=
  (escapes.map Prod.swap).lookup e

/-- The text that the characters between the quotes of a literal stand for; a backslash that starts
no escape is refused. -/
def unescape? : List Char → Option (List Char)
  | [] => some []
  | '\\' :: e :: cs => do
    let c ← unescapeChar? e
    (unescape? cs).map (c :: ·)
  | c :: cs => if c = '\\' then none else (unescape? cs).map (c :: ·)

end CodeSample.Text

import CodeSample.Ty.Describe
import Mathlib.Data.List.Basic
import Mathlib.Data.List.Induction

/-!
# Types that are spelled alike

The spelling of a type shows all of its arrays and maps, and of its unions all but those that are
members of a union. It is read from its end: a bracket, a brace or a word says what the last member
is, and what stands in front of that member says whether there are others.

* `Ty.isWorded` says that a type is built of builtin types named by words, arrays, maps and unions;
* `Ty.spliced` puts the members of a union that is a member of a union in its place, at every depth;
* `Ty.IsFlat` is the form of spliced types, and `Ty.IsMember` that of their members;
* `spelling_spliced`: splicing does not change the spelling;
* `Ty.Cancels` says that the spelling of a member is cut off from the end in one way only, and
  `IsFlat.eq_of_spelling_eq`: flat types with the same spelling are equal;
* `describe_eq_iff` is the statement for all such types.
-/

namespace CodeSample

/-! ### Words -/

namespace Text

/-- Whether a character may stand in a word: a letter or a digit of any script or an underscore.
Beyond ASCII every character counts. -/
def isWordChar (c : Char) : Bool := c.isAlphanum || c == '_' || 127 < c.toNat

/-- Whether a text is a word. -/
def isWord (s : String) : Bool := s != "" && s.toList.all isWordChar

end Text

namespace Ty

mutual

/-- Whether a type is built of builtin types named by words, arrays, maps and unions of at least two
members. -/
def isWorded : Ty → Bool
  | primitive (.text s) => Text.isWord s
  | array t => isWorded t
  | map t => isWorded t
  | union ts => 2 ≤ ts.length && areWorded ts
  | _ => false

/-- Whether several types are built so. -/
def areWorded : List Ty → Bool
  | [] => true
  | t :: ts => isWorded t && areWorded ts

end

/-! ### Splicing -/

/-- The members of a union; any other type is its own single one. -/
def parts : Ty → List Ty
  | union ts => ts
  | t => [t]

mutual

/-- A type in which every union that is a member of a union is replaced by its members, at every
depth. -/
def spliced : Ty → Ty
  | array t => array (spliced t)
  | map t => map (spliced t)
  | union ts => union (splicedMembers ts)
  | t => t

/-- The members of a union, spliced, with those of unions among them in place of these. -/
def splicedMembers : List Ty → List Ty
  | [] => []
  | t :: ts => (spliced t).parts ++ splicedMembers ts

end

/-! ### Flat types -/

/-- A member of a flat type: a word, or an array or a map whose element type is flat. -/
inductive IsMember : Ty → Prop where
  | primitive {w : String} (hw : Text.isWord w = true) : IsMember (primitive (.text w))
  | array {t : Ty} (hlength : t.isUnion = true → 2 ≤ t.parts.length)
    (hparts : ∀ m ∈ t.parts, IsMember m) : IsMember (array t)
  | map {t : Ty} (hlength : t.isUnion = true → 2 ≤ t.parts.length)
    (hparts : ∀ m ∈ t.parts, IsMember m) : IsMember (map t)

/-- A flat type is a member, or a union of at least two members. -/
structure IsFlat (t : Ty) : Prop where
  length : t.isUnion = true → 2 ≤ t.parts.length
  parts : ∀ m ∈ t.parts, IsMember m

/-- A type that is no union is its own single part. -/
theorem parts_of_not_union {t : Ty} (h : t.isUnion = false) : t.parts = [t] := by
  cases t <;> first | rfl | cases h

/-- A member is no union: the unions are spliced. -/
theorem IsMember.isUnion {t : Ty} (h : IsMember t) : t.isUnion = false := by
  cases h <;> rfl

/-- A member is a flat type. -/
theorem IsMember.isFlat {t : Ty} (h : IsMember t) : IsFlat t where
  length hunion := absurd (h.isUnion.symm.trans hunion) (by decide)
  parts m hm := by
    rw [parts_of_not_union h.isUnion] at hm
    exact List.mem_singleton.1 hm ▸ h

/-- A flat type that is no union is a member. -/
theorem IsFlat.isMember {t : Ty} (h : IsFlat t) (hunion : t.isUnion = false) : IsMember t :=
  h.parts t (parts_of_not_union hunion ▸ List.mem_singleton_self t)

/-- A flat type has parts. -/
theorem IsFlat.parts_ne_nil {t : Ty} (h : IsFlat t) : t.parts ≠ [] := by
  cases hunion : t.isUnion with
  | true =>
    intro hnil
    have := h.length hunion
    rw [hnil] at this
    cases this
  | false =>
    rw [parts_of_not_union hunion]
    exact List.cons_ne_nil _ _

/-- A flat type is a union exactly if it has two parts or more. -/
theorem IsFlat.isUnion_iff {t : Ty} (h : IsFlat t) : t.isUnion = true ↔ 2 ≤ t.parts.length := by
  refine ⟨h.length, fun hlength => ?_⟩
  by_contra hunion
  rw [parts_of_not_union (Bool.eq_false_iff.2 hunion)] at hlength
  exact absurd hlength (by simp)

/-- A flat type is known by its members. -/
theorem IsFlat.eq_of_parts {t u : Ty} (ht : IsFlat t) (hu : IsFlat u) (h : t.parts = u.parts) :
    t = u := by
  have hunion : t.isUnion = u.isUnion := by
    rw [Bool.eq_iff_iff, ht.isUnion_iff, hu.isUnion_iff, h]
  cases hu' : u.isUnion with
  | false =>
    rw [parts_of_not_union hu', parts_of_not_union (hunion.trans hu')] at h
    exact List.singleton_inj.1 h
  | true =>
    rw [hu'] at hunion
    cases t <;> cases hunion
    cases u <;> cases hu'
    exact congrArg union h

mutual

/-- A spliced type is flat. -/
theorem isFlat_spliced : ∀ {t : Ty}, t.isWorded = true → IsFlat t.spliced
  | primitive (.text s), h => (IsMember.primitive h).isFlat
  | array t, h => by
    have ih := isFlat_spliced (t := t) h
    rw [spliced]
    exact (IsMember.array ih.length ih.parts).isFlat
  | map t, h => by
    have ih := isFlat_spliced (t := t) h
    rw [spliced]
    exact (IsMember.map ih.length ih.parts).isFlat
  | union ts, h => by
    rw [isWorded, Bool.and_eq_true, decide_eq_true_eq] at h
    obtain ⟨hlength, hparts⟩ := isFlat_splicedMembers h.2
    rw [spliced]
    exact ⟨fun _ => Nat.le_trans h.1 hlength, hparts⟩
  | named .., h | unspelled, h => by
    cases h

/-- Splicing the members of a union leaves no fewer, and all are members of a flat type. The
induction is on the members, with that of `isFlat_spliced` on each. -/
theorem isFlat_splicedMembers : ∀ {ts : List Ty}, areWorded ts = true →
    ts.length ≤ (splicedMembers ts).length ∧ ∀ m ∈ splicedMembers ts, IsMember m
  | [], _ => ⟨Nat.le_refl _, fun m hm => by cases hm⟩
  | t :: ts, h => by
    rw [areWorded, Bool.and_eq_true] at h
    have ht := isFlat_spliced h.1
    obtain ⟨hlength, hparts⟩ := isFlat_splicedMembers h.2
    have hpos := List.length_pos_iff.2 ht.parts_ne_nil
    rw [splicedMembers, List.length_append, List.length_cons]
    refine ⟨by omega, fun m hm => ?_⟩
    exact (List.mem_append.1 hm).elim (ht.parts m) (hparts m)

end

/-! ### Spellings -/

/-- What stands between the members of a union. -/
def bar : String := " | "

/-- The spellings of some types are those of each. -/
theorem spellings_eq_map (ts : List Ty) : spellings ts = ts.map spelling := by
  induction ts with
  | nil => rfl
  | cons t ts ih => rw [spellings, ih, List.map_cons]

/-- Types with bars between them. -/
def barred (ts : List Ty) : String := bar.intercalate (ts.map spelling)

/-- One type with no bar is its spelling. -/
theorem barred_singleton (t : Ty) : barred [t] = t.spelling := String.intercalate_singleton

/-- Between two lists of types stands a bar, too. -/
theorem barred_append {ts us : List Ty} (hts : ts ≠ []) (hus : us ≠ []) :
    barred (ts ++ us) = barred ts ++ bar ++ barred us := by
  rw [barred, List.map_append,
    String.intercalate_append_of_ne_nil (by simpa using hts) (by simpa using hus)]
  rfl

/-- A type is spelled as its members with bars between them. -/
theorem spelling_eq_barred (t : Ty) : t.spelling = barred t.parts := by
  cases t with
  | union ts => rw [spelling, parts, barred, spellings_eq_map, bar]
  | _ => rw [parts, barred_singleton]; intro; simp

/-- Splicing makes no type a union and keeps those that are. -/
theorem isUnion_spliced (t : Ty) : t.spliced.isUnion = t.isUnion := by
  cases t <;> rw [spliced] <;> first | rfl | simp

/-- A union that has members has some when it is spliced. -/
theorem splicedMembers_ne_nil {ts : List Ty} (h : areWorded ts = true) (hts : ts ≠ []) :
    splicedMembers ts ≠ [] := by
  have hlength := (isFlat_splicedMembers h).1
  intro hnil
  rw [hnil, List.length_nil, Nat.le_zero] at hlength
  exact hts (List.length_eq_zero_iff.1 hlength)

mutual

/-- Splicing does not change the spelling. -/
theorem spelling_spliced : ∀ {t : Ty}, t.isWorded = true → t.spliced.spelling = t.spelling
  | primitive (.text s), _ => rfl
  | array t, h => by
    rw [spliced, spelling, spelling, isUnion_spliced, spelling_spliced (t := t) h]
  | map t, h => by
    rw [spliced, spelling, spelling, spelling_spliced (t := t) h]
  | union ts, h => by
    rw [isWorded, Bool.and_eq_true] at h
    rw [spliced, spelling_eq_barred, spelling_eq_barred, parts, parts, barred_splicedMembers h.2]
  | named .., h | unspelled, h => by
    cases h

/-- Splicing the members of a union does not change what is written for them with bars. -/
theorem barred_splicedMembers : ∀ {ts : List Ty}, areWorded ts = true →
    barred (splicedMembers ts) = barred ts
  | [], _ => rfl
  | t :: ts, h => by
    rw [areWorded, Bool.and_eq_true] at h
    have ht : barred t.spliced.parts = barred [t] := by
      rw [← spelling_eq_barred, spelling_spliced h.1, barred_singleton]
    rw [splicedMembers]
    by_cases hts : ts = []
    · rw [hts, splicedMembers, List.append_nil, ht]
    · rw [barred_append (isFlat_spliced h.1).parts_ne_nil (splicedMembers_ne_nil h.2 hts), ht,
        barred_splicedMembers h.2, ← barred_append (List.cons_ne_nil _ _) hts]
      rfl

end

/-! ### Reading from the end -/

/-- A text ends where a word may begin: it is empty, or its last character stands in no word. -/
def Opens (h : List Char) : Prop := ∀ c ∈ h.getLast?, Text.isWordChar c = false

/-- A text ends where a type may begin, and not behind a bar. -/
structure Starts (h : List Char) : Prop where
  opens : Opens h
  no_bar : ¬bar.toList <:+ h

/-- A text that ends in a character which stands in no word ends where a word may begin. -/
theorem Opens.append {h xs : List Char} {c : Char} (hc : xs.getLast? = some c)
    (hword : Text.isWordChar c = false) : Opens (h ++ xs) := by
  intro d hd
  rw [List.getLast?_append, hc, Option.some_or] at hd
  exact Option.some.inj hd ▸ hword

/-- Two texts that end in different characters are different. -/
theorem eq_of_getLast? {h k xs ys : List Char} {c d : Char} (heq : h ++ xs = k ++ ys)
    (hc : xs.getLast? = some c) (hd : ys.getLast? = some d) : c = d := by
  have hlast := congrArg List.getLast? heq
  rw [List.getLast?_append, List.getLast?_append, hc, hd] at hlast
  exact Option.some.inj hlast

/-- A word that ends a text is cut off in one way only. -/
theorem Opens.cancel_word {h k v w : List Char} (hh : Opens h) (hk : Opens k)
    (hv : ∀ c ∈ v, Text.isWordChar c = true) (hw : ∀ c ∈ w, Text.isWordChar c = true)
    (heq : h ++ v = k ++ w) : h = k ∧ v = w := by
  -- if one of the texts in front is longer, it ends in a character of the word behind the other
  have key {h k v w : List Char} (hk : Opens k) (hv : ∀ c ∈ v, Text.isWordChar c = true)
      {as : List Char} (hlong : k = h ++ as) (hsplit : v = as ++ w) : h = k ∧ v = w := by
    cases hlast : as.getLast? with
    | none =>
      rw [List.getLast?_eq_none_iff] at hlast
      subst hlast
      exact ⟨by rw [hlong, List.append_nil], by rw [hsplit, List.nil_append]⟩
    | some c =>
      have hopen := hk c (by rw [hlong, List.getLast?_append, hlast]; rfl)
      have hword := hv c (by
        rw [hsplit]
        exact List.mem_append_left _ (List.mem_of_getLast? hlast))
      rw [hopen] at hword
      cases hword
  rcases List.append_eq_append_iff.1 heq with ⟨as, hlong, hsplit⟩ | ⟨as, hlong, hsplit⟩
  · exact key hk hv hlong hsplit
  · obtain ⟨hfront, hback⟩ := key hh hw hlong hsplit
    exact ⟨hfront.symm, hback.symm⟩

/-- The spelling of a type is cut off in one way only from the end of a text. -/
def Cancels (t : Ty) : Prop :=
  ∀ ⦃u : Ty⦄, IsMember u → ∀ ⦃h k : List Char⦄, Opens h → Opens k →
    h ++ t.spelling.toList = k ++ u.spelling.toList → h = k ∧ t = u

/-- What stands in front of the last one of several types. -/
def lead (ts : List Ty) : List Char :=
  if ts = [] then [] else (barred ts).toList ++ bar.toList

/-- The last of several types stands behind the others and a bar. -/
theorem barred_concat (ts : List Ty) (t : Ty) :
    (barred (ts ++ [t])).toList = lead ts ++ t.spelling.toList := by
  unfold lead
  split
  · rename_i hts
    rw [hts, List.nil_append, List.nil_append, barred_singleton]
  · rename_i hts
    rw [barred_append hts (List.cons_ne_nil _ _), barred_singleton, String.toList_append,
      String.toList_append]

/-- Behind some members and a bar, or none, another type may begin. -/
theorem Starts.opens_lead {h : List Char} (hh : Starts h) (ts : List Ty) :
    Opens (h ++ lead ts) := by
  unfold lead
  split
  · rw [List.append_nil]
    exact hh.opens
  · rw [← List.append_assoc]
    exact Opens.append (c := ' ') rfl rfl

/-- The members of a union are cut off one by one, from the last one to the first. -/
theorem cancel_barred {ts us : List Ty} (hts : ∀ t ∈ ts, Cancels t) (hus : ∀ u ∈ us, IsMember u)
    (hne : ts ≠ []) (hne' : us ≠ []) {h k : List Char} (hh : Starts h) (hk : Starts k)
    (heq : h ++ (barred ts).toList = k ++ (barred us).toList) : h = k ∧ ts = us := by
  induction ts using List.reverseRecOn generalizing us with
  | nil => exact absurd rfl hne
  | append_singleton ts t ih =>
    obtain ⟨us, u, rfl⟩ := (List.eq_nil_or_concat' us).resolve_left hne'
    rw [List.forall_mem_append] at hts hus
    rw [barred_concat, barred_concat, ← List.append_assoc, ← List.append_assoc] at heq
    have hu : IsMember u := hus.2 u (List.mem_singleton_self u)
    obtain ⟨hfront, rfl⟩ :=
      hts.2 t (List.mem_singleton_self t) hu (hh.opens_lead ts) (hk.opens_lead us) heq
    unfold lead at hfront
    by_cases hnil : ts = [] <;> by_cases hnil' : us = []
    · subst hnil hnil'
      exact ⟨by simpa using hfront, rfl⟩
    · rw [if_pos hnil, if_neg hnil', List.append_nil, ← List.append_assoc] at hfront
      exact absurd (hfront ▸ List.suffix_append _ _) hh.no_bar
    · rw [if_neg hnil, if_pos hnil', List.append_nil, ← List.append_assoc] at hfront
      exact absurd (hfront ▸ List.suffix_append _ _) hk.no_bar
    · rw [if_neg hnil, if_neg hnil', ← List.append_assoc, ← List.append_assoc] at hfront
      obtain ⟨rfl, rfl⟩ := ih hts.1 hus.1 hnil hnil' (List.append_cancel_right hfront)
      exact ⟨rfl, rfl⟩

/-- So are flat types, where one may begin. -/
theorem cancel_flat {t u : Ty} (ht : IsFlat t) (hcancels : ∀ m ∈ t.parts, Cancels m) (hu : IsFlat u)
    {h k : List Char} (hh : Starts h) (hk : Starts k)
    (heq : h ++ t.spelling.toList = k ++ u.spelling.toList) : h = k ∧ t = u := by
  rw [spelling_eq_barred t, spelling_eq_barred u] at heq
  obtain ⟨hfront, hparts⟩ :=
    cancel_barred hcancels hu.parts ht.parts_ne_nil hu.parts_ne_nil hh hk heq
  exact ⟨hfront, ht.eq_of_parts hu hparts⟩

/-! ### The ends of spellings -/

/-- The spelling of a type as the element type of an array. -/
def enclosed (t : Ty) : List Char :=
  if t.isUnion then ['('] ++ t.spelling.toList ++ [')'] else t.spelling.toList

/-- What stands in front of the element type of a map. -/
def brace : String := "\x7b [key: string]: "

/-- The spelling of an array is that of its element type, in parentheses if that is a union, and two
brackets. -/
theorem spelling_array (t : Ty) : (array t).spelling.toList = enclosed t ++ ['[', ']'] := by
  rw [spelling, arraySpelling, String.toList_append]
  unfold enclosed
  split <;> simp

/-- The spelling of a map ends in a blank and a brace behind that of its element type. -/
theorem spelling_map (t : Ty) :
    (map t).spelling.toList = brace.toList ++ t.spelling.toList ++ [' ', '\x7d'] := by
  have hmap : (map t).spelling = brace ++ t.spelling ++ " \x7d" := by
    rw [spelling]
    unfold mapSpelling brace
    with_reducible rfl
  have hend : " \x7d".toList = [' ', '\x7d'] := by decide
  rw [hmap, String.toList_append, String.toList_append, hend]

/-- The spelling of an array ends in a bracket. -/
theorem getLast?_array (t : Ty) : (array t).spelling.toList.getLast? = some ']' := by
  rw [spelling_array, List.getLast?_append]
  rfl

/-- The spelling of a map ends in a brace. -/
theorem getLast?_map (t : Ty) : (map t).spelling.toList.getLast? = some '\x7d' := by
  rw [spelling_map, List.getLast?_append]
  rfl

/-- A word ends in a character that may stand in a word. -/
theorem exists_getLast?_of_isWord {w : String} (h : Text.isWord w = true) :
    ∃ c, w.toList.getLast? = some c ∧ Text.isWordChar c = true := by
  rw [Text.isWord, Bool.and_eq_true, bne_iff_ne, List.all_eq_true] at h
  have hne : w.toList ≠ [] := fun hnil => h.1 (String.toList_inj.1 hnil)
  exact ⟨_, List.getLast?_eq_some_getLast hne, h.2 _ (List.getLast_mem hne)⟩

/-- No member ends in a closing parenthesis. -/
theorem IsMember.exists_getLast? {t : Ty} (h : IsMember t) :
    ∃ c, t.spelling.toList.getLast? = some c ∧ c ≠ ')' := by
  cases h with
  | primitive hw =>
    obtain ⟨c, hc, hword⟩ := exists_getLast?_of_isWord hw
    refine ⟨c, hc, ?_⟩
    rintro rfl
    cases hword
  | array => exact ⟨_, getLast?_array _, by decide⟩
  | map => exact ⟨_, getLast?_map _, by decide⟩

/-- A text that ends in a word does not end in the spelling of an array or a map. -/
theorem word_ne {h k : List Char} {w : String} (hw : Text.isWord w = true) {u : Ty} {c : Char}
    (hu : u.spelling.toList.getLast? = some c) (hc : Text.isWordChar c = false) :
    h ++ w.toList ≠ k ++ u.spelling.toList := by
  intro heq
  obtain ⟨d, hd, hword⟩ := exists_getLast?_of_isWord hw
  rw [eq_of_getLast? heq hd hu, hc] at hword
  cases hword

/-- Behind an opened parenthesis a type may begin. -/
theorem starts_parenthesis (h : List Char) : Starts (h ++ ['(']) where
  opens := Opens.append (c := '(') rfl rfl
  no_bar hbar := by
    have hlast := List.reverse_prefix.2 hbar
    simp [bar] at hlast

/-- And so it may behind the opened brace of a map. -/
theorem starts_brace (h : List Char) : Starts (h ++ brace.toList) where
  opens := Opens.append (c := ' ') rfl rfl
  no_bar hbar := by
    have hlast := List.reverse_prefix.2 hbar
    simp [bar, brace] at hlast

/-- A member is not enclosed in parentheses. -/
theorem IsMember.ne_parenthesized {t : Ty} (ht : IsMember t) {h k xs : List Char} :
    h ++ t.spelling.toList ≠ k ++ (xs ++ [')']) := by
  intro heq
  obtain ⟨c, hc, hne⟩ := ht.exists_getLast?
  exact hne (eq_of_getLast? heq hc List.getLast?_concat)

/-- The element type of an array is cut off in one way only, with its parentheses if it is a
union. -/
theorem cancel_enclosed {t u : Ty} (ht : IsFlat t) (hcancels : ∀ m ∈ t.parts, Cancels m)
    (hu : IsFlat u) {h k : List Char} (hh : Opens h) (hk : Opens k)
    (heq : h ++ enclosed t = k ++ enclosed u) : h = k ∧ t = u := by
  unfold enclosed at heq
  split at heq <;> split at heq
  · simp only [← List.append_assoc] at heq
    obtain ⟨hfront, rfl⟩ := cancel_flat ht hcancels hu (starts_parenthesis h) (starts_parenthesis k)
      (List.append_cancel_right heq)
    exact ⟨List.append_cancel_right hfront, rfl⟩
  · rename_i hunion
    exact absurd heq.symm (hu.isMember (Bool.eq_false_iff.2 hunion)).ne_parenthesized
  · rename_i hunion _
    exact absurd heq (ht.isMember (Bool.eq_false_iff.2 hunion)).ne_parenthesized
  · rename_i htu huu
    rw [Bool.not_eq_true] at htu huu
    have htmem : t ∈ t.parts := parts_of_not_union htu ▸ List.mem_singleton_self t
    exact hcancels t htmem (hu.isMember huu) hh hk heq

/-- Every member is cut off in one way only. -/
theorem IsMember.cancels {t : Ty} (ht : IsMember t) : Cancels t := by
  -- the last character tells the three forms apart, and what is enclosed is shorter
  induction ht with
  | @primitive v hv =>
    intro u hu h k hh hk heq
    cases hu with
    | @primitive w hw =>
      rw [Text.isWord, Bool.and_eq_true, List.all_eq_true] at hv hw
      obtain ⟨hfront, hword⟩ := Opens.cancel_word hh hk hv.2 hw.2 heq
      rw [String.toList_inj.1 hword]
      exact ⟨hfront, rfl⟩
    | array => exact absurd heq (word_ne hv (getLast?_array _) (by decide))
    | map => exact absurd heq (word_ne hv (getLast?_map _) (by decide))
  | @array t hlength hparts ih =>
    intro u hu h k hh hk heq
    cases hu with
    | primitive hw => exact absurd heq.symm (word_ne hw (getLast?_array _) (by decide))
    | @array u hlength' hparts' =>
      rw [spelling_array, spelling_array, ← List.append_assoc, ← List.append_assoc] at heq
      obtain ⟨rfl, rfl⟩ := cancel_enclosed ⟨hlength, hparts⟩ ih ⟨hlength', hparts'⟩ hh hk
        (List.append_cancel_right heq)
      exact ⟨rfl, rfl⟩
    | map => exact absurd (eq_of_getLast? heq (getLast?_array _) (getLast?_map _)) (by decide)
  | @map t hlength hparts ih =>
    intro u hu h k hh hk heq
    cases hu with
    | primitive hw => exact absurd heq.symm (word_ne hw (getLast?_map _) (by decide))
    | array => exact absurd (eq_of_getLast? heq (getLast?_map _) (getLast?_array _)) (by decide)
    | @map u hlength' hparts' =>
      rw [spelling_map, spelling_map] at heq
      simp only [← List.append_assoc] at heq
      obtain ⟨hfront, rfl⟩ := cancel_flat ⟨hlength, hparts⟩ ih ⟨hlength', hparts'⟩ (starts_brace h)
        (starts_brace k) (List.append_cancel_right heq)
      exact ⟨List.append_cancel_right hfront, rfl⟩

/-- The start of a text. -/
theorem starts_nil : Starts [] where
  opens c hc := by cases hc
  no_bar hbar := by
    rw [List.suffix_nil] at hbar
    revert hbar
    decide

/-- Flat types with the same spelling are equal. -/
theorem IsFlat.eq_of_spelling_eq {t u : Ty} (ht : IsFlat t) (hu : IsFlat u)
    (h : t.spelling = u.spelling) : t = u :=
  (cancel_flat ht (fun m hm => (ht.parts m hm).cancels) hu starts_nil starts_nil
    (congrArg (fun s => [] ++ s.toList) h)).2

/-! ### Descriptions -/

mutual

/-- A worded type has a spelling. -/
theorem spelled_of_isWorded : ∀ {t : Ty}, t.isWorded = true → t.Spelled
  | primitive (.text s), _ => by
    rw [Spelled]
    exact ⟨s, rfl⟩
  | array t, h | map t, h => by
    rw [Spelled]
    exact spelled_of_isWorded (t := t) h
  | union ts, h => by
    rw [isWorded, Bool.and_eq_true] at h
    rw [Spelled]
    exact allSpelled_of_areWorded h.2
  | named .., h | unspelled, h => by
    cases h

/-- Worded types have spellings. -/
theorem allSpelled_of_areWorded : ∀ {ts : List Ty}, areWorded ts = true → AllSpelled ts
  | [], _ => trivial
  | t :: ts, h => by
    rw [areWorded, Bool.and_eq_true] at h
    exact ⟨spelled_of_isWorded h.1, allSpelled_of_areWorded h.2⟩

end

/-- Two types are described, and described alike exactly when they are the same once the unions in
them are spliced. -/
theorem describe_eq_iff {t u : Ty} (ht : t.isWorded = true) (hu : u.isWorded = true) :
    (∃ s, t.describe = .ok (.text s)) ∧ (∃ s, u.describe = .ok (.text s)) ∧
      (t.describe = u.describe ↔ t.spliced = u.spliced) := by
  have htext := describe_of_spelled t (spelled_of_isWorded ht)
  have hutext := describe_of_spelled u (spelled_of_isWorded hu)
  refine ⟨⟨_, htext⟩, ⟨_, hutext⟩, ?_⟩
  have hspelling : t.describe = u.describe ↔ t.spelling = u.spelling := by
    rw [htext, hutext, Except.ok.injEq, Data.text.injEq]
  rw [hspelling, ← spelling_spliced ht, ← spelling_spliced hu]
  exact ⟨(isFlat_spliced ht).eq_of_spelling_eq (isFlat_spliced hu), congrArg spelling⟩

/-- Unions of an array and a map that are nested differently are described alike; a union that has
lost the parentheses of its array is described otherwise. -/
theorem describe_eq_iff_nested :
    let number := primitive (.text "number")
    let text := primitive (.text "string")
    let either := array (union [number, text])
    (union [number, union [either, map (union [text, union [number, text]])]]).describe
        = (union [union [number, either], map (union [union [text, number], text])]).describe ∧
      (array (union [number, text])).describe ≠ (union [number, array text]).describe :=
  ⟨(describe_eq_iff (by decide) (by decide)).2.2.2 rfl,
    fun h => by cases (describe_eq_iff (by decide) (by decide)).2.2.1 h⟩

end Ty

end CodeSample

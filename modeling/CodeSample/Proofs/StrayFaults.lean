import CodeSample.Proofs.NodeGrammar

/-!
# Data that stray

A datum that describes no type or no node is found malformed, as a rule. It strays when reading it
ends in another fault, and there are three ways to: a line or a column that gives no whole number,
the members of a union in a datum that cannot be enumerated, and the text of a string literal
without a source if it is no text.

* `Answered` says that a reading gives something or finds the datum malformed;
* `ReadsEach` is a reading of several things one after the other: it ends in the fault of the first
  one that has one;
* `Data.StraysAsType` and `Data.Strays` say where a datum strays and with which fault; all that
  stands in front of that has to be read;
* `Node.ofData_answered_iff`: all data are answered but those.
-/

namespace CodeSample

/-! ### Faults of a reading -/

/-- A reading gives something, or finds that nothing is described. -/
def Answered {α : Type} (x : Except Fault α) : Prop :=
  (∃ a, x = .ok a) ∨ ∃ cause, x = .error (.malformed cause)

/-- A reading is answered if it ends in no fault but that of a malformed datum. -/
theorem answered_iff {α : Type} {x : Except Fault α} :
    Answered x ↔ ∀ f : Fault, f.isMalformed = false → x ≠ .error f := by
  cases x with
  | ok a =>
    constructor
    · rintro - f - ⟨⟩
    · exact fun _ => Or.inl ⟨a, rfl⟩
  | error fault =>
    constructor
    · rintro (⟨_, ⟨⟩⟩ | ⟨cause, ⟨⟩⟩) f hf ⟨⟩
      cases hf
    · intro h
      cases fault with
      | malformed cause => exact Or.inr ⟨cause, rfl⟩
      | _ => exact absurd rfl (h _ rfl)

namespace Fault

variable {α β : Type} {f : Fault}

/-- Two readings after each other end in a fault if the first one does, or the second one. -/
theorem bind_eq_error_iff {x : Except Fault α} {next : α → Except Fault β} :
    x >>= next = .error f ↔ x = .error f ∨ ∃ a, x = .ok a ∧ next a = .error f := by
  cases x with
  | error fault =>
    constructor
    · rintro ⟨⟩
      exact Or.inl rfl
    · rintro (⟨⟨⟩⟩ | ⟨_, ⟨⟩, -⟩)
      rfl
  | ok a =>
    constructor
    · exact fun h => Or.inr ⟨a, rfl, h⟩
    · rintro (⟨⟨⟩⟩ | ⟨_, ⟨⟩, h⟩)
      exact h

/-- What is made of a reading ends in a fault exactly if the reading does. -/
theorem bind_pure_eq_error_iff {x : Except Fault α} {g : α → β} :
    (do return g (← x)) = .error f ↔ x = .error f := by
  rw [bind_eq_error_iff]
  constructor
  · rintro (h | ⟨_, -, ⟨⟩⟩)
    exact h
  · exact Or.inl

/-- A datum that is found malformed does not stray. -/
theorem malformed_ne {cause : Malformed} (hf : f.isMalformed = false) :
    (.error (.malformed cause) : Except Fault α) ≠ .error f := by
  rintro ⟨⟩
  cases hf

end Fault

/-- Several things are read one after the other, each by itself. -/
structure ReadsEach {α β γ : Type} (read : α → Except Fault β)
    (readAll : List α → Except Fault γ) : Prop where
  nil : ∃ c, readAll [] = .ok c
  cons : ∀ a as, ∃ join : β → γ → γ, readAll (a :: as) = do return join (← read a) (← readAll as)

namespace ReadsEach

variable {α β γ : Type} {read : α → Except Fault β} {readAll : List α → Except Fault γ}
  {as : List α} {f : Fault}

/-- They end in a fault if one of them does and all in front of it are read. -/
theorem eq_error_iff (h : ReadsEach read readAll) :
    readAll as = .error f ↔ ∃ front a rest, as = front ++ a :: rest ∧
      (∀ x ∈ front, ∃ b, read x = .ok b) ∧ read a = .error f := by
  induction as with
  | nil =>
    obtain ⟨c, hc⟩ := h.nil
    rw [hc]
    constructor
    · rintro ⟨⟩
    · rintro ⟨front, a, rest, heq, -⟩
      simp at heq
  | cons a as ih =>
    obtain ⟨join, hjoin⟩ := h.cons a as
    have hstep : readAll (a :: as) = .error f ↔
        read a = .error f ∨ (∃ b, read a = .ok b) ∧ readAll as = .error f := by
      rw [hjoin, Fault.bind_eq_error_iff]
      simp only [Fault.bind_pure_eq_error_iff]
      rw [← exists_and_right]
    rw [hstep, ih]
    constructor
    · rintro (ha | ⟨ha, front, x, rest, rfl, hfront, hx⟩)
      · exact ⟨[], a, as, rfl, fun _ h => absurd h List.not_mem_nil, ha⟩
      · exact ⟨a :: front, x, rest, rfl, List.forall_mem_cons.2 ⟨ha, hfront⟩, hx⟩
    · rintro ⟨front, x, rest, heq, hfront, hx⟩
      cases front with
      | nil =>
        obtain ⟨rfl, -⟩ := List.cons.inj heq
        exact Or.inl hx
      | cons y front =>
        obtain ⟨rfl, rfl⟩ := List.cons.inj heq
        rw [List.forall_mem_cons] at hfront
        exact Or.inr ⟨hfront.1, front, x, rest, rfl, hfront.2, hx⟩

end ReadsEach

/-! ### Places -/

namespace Data

/-- There is no whole number of a datum that stands for a line or a column. -/
inductive StraysAsCoordinate : Data → Fault → Prop where
  | null : StraysAsCoordinate null .wrongSort
  | list (ds : List Data) : StraysAsCoordinate (list ds) .wrongSort
  | object (ms : List (String × Data)) : StraysAsCoordinate (object ms) .wrongSort
  | text {s : String} (h : Number.readWhole? s = none) : StraysAsCoordinate (text s) .notWhole
  | nan : StraysAsCoordinate (float .nan) .notWhole
  | infinite (negative : Bool) : StraysAsCoordinate (float (.infinite negative)) .unbounded

/-- A list of a line and a column strays with the line, or behind a line with the column. -/
inductive StraysAsPlace : Data → Fault → Prop where
  | line {line col : Data} {f : Fault} (h : line.StraysAsCoordinate f) :
      StraysAsPlace (list [line, col]) f
  | col {line col : Data} {f : Fault} (hline : ∃ n, Pos.coordinate line = .ok n)
      (h : col.StraysAsCoordinate f) : StraysAsPlace (list [line, col]) f

end Data

namespace Pos

variable {d : Data} {f : Fault}

/-- Reading a line or a column ends in a fault exactly where it strays. -/
theorem coordinate_eq_error_iff : coordinate d = .error f ↔ d.StraysAsCoordinate f := by
  constructor
  · intro h
    unfold coordinate at h
    split at h
    · cases h
    · cases h
    · split at h
      · cases h
      · rename_i x _ hx
        cases x with
        | finite => cases hx
        | nan =>
          cases h
          exact .nan
        | infinite =>
          cases h
          exact .infinite _
    · split at h
      · cases h
      · rename_i hs
        cases h
        exact .text hs
    · cases h
      cases d with
      | null => exact .null
      | list => exact .list _
      | object => exact .object _
      | _ => simp_all
  · rintro (_ | _ | _ | hs | _ | _)
    case text =>
      rw [coordinate, hs]
    all_goals rfl

/-- A place strays with one of its parts only. -/
theorem ofData_eq_error_iff (hf : f.isMalformed = false) :
    ofData d = .error f ↔ d.StraysAsPlace f := by
  constructor
  · intro h
    unfold ofData at h
    split at h
    · rcases Fault.bind_eq_error_iff.1 h with hline | ⟨line, hline, h⟩
      · exact .line (coordinate_eq_error_iff.1 hline)
      · exact .col ⟨line, hline⟩ (coordinate_eq_error_iff.1 (Fault.bind_pure_eq_error_iff.1 h))
    · exact absurd h (Fault.malformed_ne hf)
  · rintro (h | ⟨⟨line, hline⟩, h⟩)
    · exact Fault.bind_eq_error_iff.2 (Or.inl (coordinate_eq_error_iff.2 h))
    · exact Fault.bind_eq_error_iff.2 (Or.inr ⟨line, hline,
        Fault.bind_pure_eq_error_iff.2 (coordinate_eq_error_iff.2 h)⟩)

end Pos

/-! ### Types -/

namespace Data

/-- Whether a datum can be enumerated. -/
def isEnumerable : Data → Bool
  | list _ | text _ | object _ => true
  | _ => false

mutual

/-- A datum strays as a type: its element type does, or its members do. -/
inductive StraysAsType : Data → Prop where
  | element {ms : List (String × Data)} {kind : String} {d : Data}
      (hkind : Ty.textMember? ms "kind" = some kind) (h : kind = "array" ∨ kind = "map")
      (hd : get? ms "element" = some d) (hstray : StraysAsType d) : StraysAsType (object ms)
  | members {ms : List (String × Data)} {d : Data}
      (hkind : Ty.textMember? ms "kind" = some "union") (hd : get? ms "members" = some d)
      (hstray : StraysAsMembers d) : StraysAsType (object ms)

/-- A datum strays as the members of a union: it cannot be enumerated, or one of its items strays
and all in front of it are types. -/
inductive StraysAsMembers : Data → Prop where
  | sort {d : Data} (h : d.isEnumerable = false) : StraysAsMembers d
  | item {front rest : List Data} {d : Data} (hread : ∀ e ∈ front, ∃ t, Ty.ofData e = .ok t)
      (hstray : StraysAsType d) : StraysAsMembers (list (front ++ d :: rest))

end

end Data

namespace Ty

variable {ms : List (String × Data)} {f : Fault}

/-- The members of a union are read one after the other. -/
theorem readsEach_ofItems : ReadsEach ofData ofItems where
  nil := ⟨[], by rw [ofItems]⟩
  cons d ds := ⟨List.cons, by rw [ofItems]⟩

/-- A key that is demanded is answered with its member. -/
theorem demand_eq_ok_iff {kind key : String} {d : Data} :
    demand kind key ms = .ok d ↔ Data.get? ms key = some d := by
  unfold demand
  split
  · rename_i e he
    rw [he, Except.ok.injEq, Option.some.injEq]
  · rename_i he
    rw [he]
    constructor <;> rintro ⟨⟩

/-- A fault that is not that of a malformed datum comes after the key that is demanded. -/
theorem demand_bind_eq_error_iff {β : Type} {kind key : String} {next : Data → Except Fault β}
    (hf : f.isMalformed = false) : demand kind key ms >>= next = .error f ↔
      ∃ d, Data.get? ms key = some d ∧ next d = .error f := by
  rw [Fault.bind_eq_error_iff]
  simp only [demand_eq_ok_iff]
  refine or_iff_right fun h => ?_
  unfold demand at h
  split at h
  · cases h
  · exact Fault.malformed_ne hf h

/-- Putting a union together only finds data malformed. -/
theorem unionOf_ne_error (hf : f.isMalformed = false) (ts : List Ty) : unionOf ts ≠ .error f := by
  unfold unionOf
  split
  · exact Fault.malformed_ne hf
  · rintro ⟨⟩

/-- A type strays with its element type or its members only. -/
theorem ofKind_eq_error_iff (hf : f.isMalformed = false) {kind? : Option String} :
    ofKind ms kind? = .error f ↔
      (∃ d, (kind? = some "array" ∨ kind? = some "map") ∧ Data.get? ms "element" = some d ∧
        ofData d = .error f) ∨
      ∃ d, kind? = some "union" ∧ Data.get? ms "members" = some d ∧ ofEnumerable d = .error f := by
  unfold ofKind
  split
  · rw [demand_bind_eq_error_iff hf]
    simp [pure, Except.pure]
  · rw [demand_bind_eq_error_iff hf]
    simp [pure, Except.pure]
  · simp only [demand_bind_eq_error_iff hf, Fault.bind_pure_eq_error_iff]
    simp
  · simp only [demand_bind_eq_error_iff hf, Fault.bind_pure_eq_error_iff]
    simp
  · rw [demand_bind_eq_error_iff hf]
    simp [Fault.bind_eq_error_iff, unionOf_ne_error hf]
  · simp_all [Fault.malformed_ne hf]

/-- A datum that is no object is found malformed as a type. -/
theorem ofData_of_ne_object {d : Data} (h : ∀ ms, d ≠ .object ms) :
    ofData d = .error (.malformed (.typeExpected d)) := by
  cases d with
  | object ms => exact absurd rfl (h ms)
  | _ => rw [ofData]; exact h

/-- What is no object does not stray as a type. -/
theorem ofData_eq_error_iff_of_ne_object {d : Data} (h : ∀ ms, d ≠ .object ms)
    (hf : f.isMalformed = false) : ofData d = .error f ↔ d.StraysAsType ∧ f = .wrongSort := by
  rw [ofData_of_ne_object h]
  refine iff_of_false (Fault.malformed_ne hf) ?_
  rintro ⟨⟨⟩, -⟩ <;> exact h _ rfl

/-- Putting texts together only finds data malformed. -/
theorem ofTexts_ne_error (hf : f.isMalformed = false) (ss : List String) :
    ofTexts ss ≠ .error f := by
  cases ss with
  | nil => rintro ⟨⟩
  | cons => exact Fault.malformed_ne hf

/-- What strays as a type or as the members of a union is of a wrong sort, and all else is read or
found malformed. -/
theorem ofData_eq_error_iff (d : Data) : ∀ f : Fault, f.isMalformed = false →
    (ofData d = .error f ↔ d.StraysAsType ∧ f = .wrongSort) ∧
      (ofEnumerable d = .error f ↔ d.StraysAsMembers ∧ f = .wrongSort) := by
  induction d using Data.induct with
  | object ms ih =>
    intro f hf
    refine ⟨?_, ?_⟩
    · rw [ofData_object, ofKind_eq_error_iff hf]
      constructor
      · rintro (⟨d, hkind, hd, h⟩ | ⟨d, hkind, hd, h⟩)
        · obtain ⟨hstray, rfl⟩ := (ih _ (Data.mem_of_get? hd) f hf).1.1 h
          rcases hkind with hkind | hkind
          · exact ⟨.element hkind (Or.inl rfl) hd hstray, rfl⟩
          · exact ⟨.element hkind (Or.inr rfl) hd hstray, rfl⟩
        · obtain ⟨hstray, rfl⟩ := (ih _ (Data.mem_of_get? hd) f hf).2.1 h
          exact ⟨.members hkind hd hstray, rfl⟩
      · rintro ⟨hstray, rfl⟩
        cases hstray with
        | @element _ kind d hkind h hd hstray =>
          refine Or.inl ⟨d, ?_, hd, (ih _ (Data.mem_of_get? hd) _ rfl).1.2 ⟨hstray, rfl⟩⟩
          rw [hkind]
          exact h.imp (congrArg some) (congrArg some)
        | members hkind hd hstray =>
          exact Or.inr ⟨_, hkind, hd, (ih _ (Data.mem_of_get? hd) _ rfl).2.2 ⟨hstray, rfl⟩⟩
    · rw [ofEnumerable]
      refine iff_of_false (ofTexts_ne_error hf _) ?_
      rintro ⟨⟨⟨⟩⟩, -⟩
  | list ds ih =>
    intro f hf
    refine ⟨ofData_eq_error_iff_of_ne_object (fun _ => by simp) hf, ?_⟩
    rw [ofEnumerable, readsEach_ofItems.eq_error_iff]
    constructor
    · rintro ⟨front, d, rest, rfl, hread, h⟩
      obtain ⟨hstray, rfl⟩ := (ih d (by simp) f hf).1.1 h
      exact ⟨.item hread hstray, rfl⟩
    · rintro ⟨hstray, rfl⟩
      cases hstray with
      | sort h => cases h
      | @item front rest d hread hstray =>
        exact ⟨front, d, rest, rfl, hread, (ih d (by simp) _ rfl).1.2 ⟨hstray, rfl⟩⟩
  | text s =>
    intro f hf
    refine ⟨ofData_eq_error_iff_of_ne_object (fun _ => by simp) hf, ?_⟩
    rw [ofEnumerable]
    refine iff_of_false (ofTexts_ne_error hf _) ?_
    rintro ⟨⟨⟨⟩⟩, -⟩
  | _ =>
    intro f hf
    refine ⟨ofData_eq_error_iff_of_ne_object (fun _ => by simp) hf, ?_⟩
    rw [ofEnumerable, Except.error.injEq, eq_comm]
    · exact (and_iff_right (.sort rfl)).symm
    all_goals simp

end Ty

/-! ### Nodes -/

namespace Data

/-- A datum strays in a field of a node: an item of a list does, or a member of a node, and all in
front of it are read; or a string literal is made of members that are all read, and its text is no
text. -/
inductive Strays : Data → Fault → Prop where
  | item {front rest : List Data} {d : Data} {f : Fault}
      (hread : ∀ e ∈ front, ∃ v, Value.ofExchange e = .ok v) (h : Strays d f) :
      Strays (list (front ++ d :: rest)) f
  | place {front rest : List (String × Data)} {d : Data} {kind : Kind} {f : Fault}
      (hkind : Kind.ofMembers (front ++ ("pos", d) :: rest) = .ok kind)
      (hread : ∀ m ∈ front, ∃ part?, Value.partOf kind m.1 m.2 = .ok part?)
      (h : d.StraysAsPlace f) : Strays (object (front ++ ("pos", d) :: rest)) f
  | type {front rest : List (String × Data)} {d : Data} {kind : Kind}
      (hkind : Kind.ofMembers (front ++ ("typ", d) :: rest) = .ok kind)
      (hread : ∀ m ∈ front, ∃ part?, Value.partOf kind m.1 m.2 = .ok part?)
      (htyped : kind.typed = true) (h : d.StraysAsType) :
      Strays (object (front ++ ("typ", d) :: rest)) .wrongSort
  | content {front rest : List (String × Data)} {key : String} {d : Data} {kind : Kind} {f : Fault}
      (hkind : Kind.ofMembers (front ++ (key, d) :: rest) = .ok kind)
      (hread : ∀ m ∈ front, ∃ part?, Value.partOf kind m.1 m.2 = .ok part?)
      (hkey : key ∈ kind.keys) (hother : key ∉ ["kind", "pos", "typ"]) (h : Strays d f) :
      Strays (object (front ++ (key, d) :: rest)) f
  | text {ms : List (String × Data)} {d : Data}
      (hkind : Kind.ofMembers ms = .ok .stringLiteral)
      (hread : ∀ m ∈ ms, ∃ part?, Value.partOf .stringLiteral m.1 m.2 = .ok part?)
      (hsource : ∀ e, get? ms "source" = some e → e.truthy = false)
      (htext : get? ms "text" = some d) (h : d.isText = false) : Strays (object ms) .noProperty

/-- A datum strays as a node: it is an object and strays. -/
inductive StraysAsNode : Data → Fault → Prop where
  | object {ms : List (String × Data)} {f : Fault} (h : Strays (object ms) f) :
      StraysAsNode (object ms) f

end Data

/-- There is no stray type where there may be none. -/
theorem Ty.ofData?_eq_error_iff {d : Data} {f : Fault} (hf : f.isMalformed = false) :
    ofData? d = .error f ↔ d.StraysAsType ∧ f = .wrongSort := by
  by_cases hd : d = .null
  · subst hd
    refine iff_of_false (by rintro ⟨⟩) ?_
    rintro ⟨⟨⟩, -⟩
  · rw [ofData?_of_ne_null hd, Fault.bind_pure_eq_error_iff]
    exact (ofData_eq_error_iff d f hf).1

namespace Value

variable {kind : Kind} {ms : List (String × Data)} {key : String} {d : Data} {f : Fault}

/-- A member of a node strays as a place, as a type, or with what it holds. -/
theorem partOf_eq_error_iff (hf : f.isMalformed = false) : partOf kind key d = .error f ↔
    (key = "pos" ∧ d.StraysAsPlace f) ∨
      (key = "typ" ∧ kind.typed = true ∧ d.StraysAsType ∧ f = .wrongSort) ∨
      (key ∈ kind.keys ∧ key ∉ ["kind", "pos", "typ"] ∧ ofExchange d = .error f) := by
  unfold partOf
  cases hrole : kind.role? key with
  | none =>
    refine iff_of_false (Fault.malformed_ne hf) ?_
    rintro (⟨rfl, -⟩ | ⟨rfl, htyped, -⟩ | ⟨hkey, -⟩)
    · cases hrole
    · simp [Kind.role?, htyped] at hrole
    · rw [← Kind.isSome_role?, hrole] at hkey
      cases hkey
  | some role =>
    have hkey : key ∈ kind.keys := Kind.isSome_role?.1 (by rw [hrole]; rfl)
    obtain rfl := Kind.key_of_role? hrole
    cases role with
    | kind => simp [Role.key]
    | pos =>
      rw [Fault.bind_pure_eq_error_iff, Pos.ofData_eq_error_iff hf]
      simp [Role.key]
    | type =>
      rw [Fault.bind_pure_eq_error_iff, Ty.ofData?_eq_error_iff hf]
      simp [Role.key, Kind.typed_of_role? hrole]
    | source =>
      rw [Fault.bind_pure_eq_error_iff]
      simp [Role.key, show "source" ∈ kind.keys from hkey]
    | field g =>
      have hother : g.key ≠ "kind" ∧ g.key ≠ "pos" ∧ g.key ≠ "typ" := by
        cases g <;> decide
      rw [Fault.bind_pure_eq_error_iff]
      simp [Role.key, show g.key ∈ kind.keys from hkey, hother]

/-- The items of a list are read one after the other. -/
theorem readsEach_itemsOf : ReadsEach ofExchange itemsOf where
  nil := ⟨[], by rw [itemsOf]⟩
  cons d ds := ⟨List.cons, by rw [itemsOf]⟩

/-- The members of a node are read one after the other. -/
theorem readsEach_partsOf (kind : Kind) :
    ReadsEach (fun m : String × Data => partOf kind m.1 m.2) (partsOf kind) where
  nil := ⟨[], by rw [partsOf]⟩
  cons m ms := ⟨fun part? parts => part?.toList ++ parts, partsOf_cons kind m.1 m.2 ms⟩

/-- What is read of a datum is a text or counts as true just if the datum does. -/
theorem text_and_truthy_of_ofExchange {v : Value} (h : ofExchange d = .ok v) :
    ((∃ s, v = .text s) ↔ d.isText = true) ∧ v.truthy = d.truthy := by
  cases d with
  | object ms =>
    rw [ofExchange] at h
    obtain ⟨kind, hkind, h⟩ := Fault.exists_of_bind h
    obtain ⟨parts, -, h⟩ := Fault.exists_of_bind h
    obtain ⟨n, -, h⟩ := Fault.exists_of_bind h
    obtain rfl := Except.ok.inj h
    refine ⟨iff_of_false (by rintro ⟨_, ⟨⟩⟩) (by simp [Data.isText]), ?_⟩
    cases ms with
    | nil => cases hkind
    | cons => rfl
  | list ds =>
    rw [ofExchange] at h
    obtain ⟨vs, hvs, h⟩ := Fault.exists_of_bind h
    obtain rfl := Except.ok.inj h
    refine ⟨iff_of_false (by rintro ⟨_, ⟨⟩⟩) (by simp [Data.isText]), ?_⟩
    cases ds with
    | nil =>
      rw [itemsOf] at hvs
      obtain rfl := Except.ok.inj hvs
      rfl
    | cons d ds =>
      rw [itemsOf] at hvs
      obtain ⟨w, -, hvs⟩ := Fault.exists_of_bind hvs
      obtain ⟨ws, -, hvs⟩ := Fault.exists_of_bind hvs
      obtain rfl := Except.ok.inj hvs
      rfl
  | _ =>
    rw [ofExchange] at h
    obtain rfl := Except.ok.inj h
    simp [Data.isText, truthy, Data.truthy]

section

variable {parts : List Part} (h : partsOf kind ms = .ok parts)
include h

/-- What stands at the key of a field was read. -/
theorem exists_ofExchange_of_partsOf (hd : Data.get? ms key = some d)
    (hkey : key ∉ ["kind", "pos", "typ"]) : ∃ v, ofExchange d = .ok v := by
  obtain ⟨part?, hpart⟩ := exists_partsOf_iff.1 ⟨parts, h⟩ _ (Data.mem_of_get? hd)
  dsimp only at hpart
  unfold partOf at hpart
  cases hrole : kind.role? key with
  | none =>
    rw [hrole] at hpart
    cases hpart
  | some role =>
    rw [hrole] at hpart
    obtain rfl := Kind.key_of_role? hrole
    cases role with
    | kind | pos | type => exact absurd (by simp [Role.key]) hkey
    | source | field => exact Fault.exists_bind_pure_iff.1 ⟨_, hpart⟩

/-- The source among the parts is what was read at its key. -/
theorem source?_partsOf :
    Part.source? parts = (Data.get? ms "source").bind fun d => (ofExchange d).toOption := by
  refine (findSome?_partsOf Part.looks_source (Kind.eq_of_role? rfl) h).trans ?_
  refine congrArg (Option.bind _) (funext fun d => ?_)
  have hpart : partOf kind "source" d = do return some (.source (← ofExchange d)) := rfl
  show (partOf kind "source" d).toOption.join.bind _ = _
  rw [hpart]
  cases ofExchange d <;> rfl

/-- The content of a field among the parts is what was read at its key. -/
theorem field?_partsOf {slot : Slot} (hslot : slot ∈ kind.slots) : Part.field? parts slot.field =
    (Data.get? ms slot.field.key).bind fun d => (ofExchange d).toOption := by
  refine (findSome?_partsOf (Part.looks_field slot.field) (Kind.eq_of_role?_field hslot) h).trans ?_
  refine congrArg (Option.bind _) (funext fun d => ?_)
  unfold partOf
  rw [show Role.key (.field slot.field) = slot.field.key from rfl, Kind.role?_key kind slot hslot]
  cases ofExchange d with
  | error => rfl
  | ok v =>
    show (if slot.field = slot.field then some v else none) = some v
    rw [if_pos rfl]

end

end Value

namespace Node

variable {kind : Kind} {ms : List (String × Data)} {parts : List Part} {f : Fault}

/-- A node is assembled without a source that counts if its datum has none. -/
theorem truthy_source_assembled (h : Value.partsOf kind ms = .ok parts) :
    (assembled kind parts).source.truthy = false ↔
      ∀ d, Data.get? ms "source" = some d → d.truthy = false := by
  show ((Part.source? parts).getD (.text "")).truthy = false ↔ _
  rw [Value.source?_partsOf h]
  cases hd : Data.get? ms "source" with
  | none => simp [Value.truthy]
  | some d =>
    obtain ⟨v, hv⟩ := Value.exists_ofExchange_of_partsOf h hd (by simp)
    rw [Option.bind_some, hv]
    show v.truthy = false ↔ _
    rw [(Value.text_and_truthy_of_ofExchange hv).2]
    simp

/-- A string literal is made of its parts and has no text, just if there is a member for the text
and holds none. -/
theorem text_assembled_iff (h : Value.partsOf .stringLiteral ms = .ok parts) :
    (missing .stringLiteral parts = [] ∧
        ∀ s, (assembled .stringLiteral parts).get .text ≠ .text s) ↔
      ∃ d, Data.get? ms "text" = some d ∧ d.isText = false := by
  have hmissing : missing .stringLiteral parts = [] ↔ ∃ d, Data.get? ms "text" = some d := by
    rw [missing_eq_nil_iff h, ← Option.isSome_iff_exists, Data.isSome_get?]
    simp [Kind.slots, Field.key]
  have hget : (assembled .stringLiteral parts).get .text =
      ((Data.get? ms "text").bind fun d => (Value.ofExchange d).toOption).getD .null := by
    have hslot : Slot.required .text ∈ Kind.stringLiteral.slots := by simp [Kind.slots]
    have hfield : Part.field? parts .text = _ := Value.field?_partsOf h hslot
    show (((Part.field? parts .text).or none).getD .null) = _
    rw [hfield, Option.or_none]
    rfl
  rw [hmissing, hget]
  cases hd : Data.get? ms "text" with
  | none => simp
  | some d =>
    obtain ⟨v, hv⟩ := Value.exists_ofExchange_of_partsOf h hd (by simp)
    have htext := (Value.text_and_truthy_of_ofExchange hv).1
    rw [Option.bind_some, hv]
    show _ ∧ (∀ s, v ≠ .text s) ↔ _
    rw [← not_exists, htext]
    simp

/-- The source of a node that has none cannot be made up exactly for a string literal whose text is
no text. -/
theorem defaultSource_eq_error_iff (hf : f.isMalformed = false) (n : Node) :
    n.defaultSource = .error f ↔
      n.kind = .stringLiteral ∧ (∀ s, n.get .text ≠ .text s) ∧ f = .noProperty := by
  unfold defaultSource
  split
  · rename_i hk
    simp [hk]
  · rename_i hk
    simp [hk]
  · rename_i hk
    split
    · rename_i s hs
      simp [hs]
    · rename_i hs
      constructor
      · rintro ⟨⟩
        exact ⟨hk, hs, rfl⟩
      · rintro ⟨-, -, rfl⟩
        rfl
  · rename_i hk
    split
    · simp [hk]
    · split
      · simp [hk]
      · simp [hk, Fault.malformed_ne hf]
  · simp_all

/-- Only a string literal whose text is no text cannot get a source. -/
theorem ofParts_eq_error_iff (hf : f.isMalformed = false) :
    ofParts kind parts = .error f ↔ missing kind parts = [] ∧ kind = .stringLiteral ∧
      (assembled kind parts).source.truthy = false ∧
      (∀ s, (assembled kind parts).get .text ≠ .text s) ∧ f = .noProperty := by
  have hsource : (assembled kind parts).withSource = .error f ↔
      (assembled kind parts).source.truthy = false ∧
        (assembled kind parts).defaultSource = .error f := by
    unfold withSource
    split
    · rename_i htruthy
      simp [htruthy]
    · rename_i htruthy
      rw [Fault.bind_pure_eq_error_iff]
      exact (and_iff_right (Bool.eq_false_iff.2 htruthy)).symm
  unfold ofParts
  split
  · rename_i hmissing
    show (assembled kind parts).withSource = _ ↔ _
    rw [hsource, defaultSource_eq_error_iff hf, and_left_comm, eq_true hmissing, true_and]
    rfl
  · rename_i hmissing
    exact iff_of_false (Fault.malformed_ne hf) fun h => hmissing h.1

end Node

/-- An object whose kind is not known does not stray. -/
theorem Kind.ofMembers_ne_error {ms : List (String × Data)} {f : Fault}
    (hf : f.isMalformed = false) : ofMembers ms ≠ .error f := by
  unfold ofMembers
  split
  · split
    · rintro ⟨⟩
    · exact Fault.malformed_ne hf
  · exact Fault.malformed_ne hf

namespace Value

variable {ms : List (String × Data)} {f : Fault}

/-- An object strays with a member, or when a node is made of them all. -/
theorem ofExchange_object_eq_error_iff (hf : f.isMalformed = false) :
    ofExchange (.object ms) = .error f ↔ ∃ kind, Kind.ofMembers ms = .ok kind ∧
      (partsOf kind ms = .error f ∨
        ∃ parts, partsOf kind ms = .ok parts ∧ Node.ofParts kind parts = .error f) := by
  rw [ofExchange, Fault.bind_eq_error_iff, or_iff_right (Kind.ofMembers_ne_error hf)]
  refine exists_congr fun kind => and_congr_right' ?_
  rw [Fault.bind_eq_error_iff]
  refine or_congr_right (exists_congr fun parts => and_congr_right' ?_)
  exact Fault.bind_pure_eq_error_iff

/-- The data that stray in a field are those that are neither read nor found malformed. -/
theorem ofExchange_eq_error_iff (d : Data) : ∀ f : Fault, f.isMalformed = false →
    (ofExchange d = .error f ↔ d.Strays f) := by
  induction d using Data.induct with
  | object ms ih =>
    intro f hf
    rw [ofExchange_object_eq_error_iff hf]
    constructor
    · rintro ⟨kind, hkind, h | ⟨parts, hparts, h⟩⟩
      · obtain ⟨front, ⟨key, d⟩, rest, rfl, hread, h⟩ := (readsEach_partsOf kind).eq_error_iff.1 h
        rcases (partOf_eq_error_iff hf).1 h with
          ⟨rfl, hstray⟩ | ⟨rfl, htyped, hstray, rfl⟩ | ⟨hkey, hother, h⟩
        · exact .place hkind hread hstray
        · exact .type hkind hread htyped hstray
        · exact .content hkind hread hkey hother ((ih _ (by simp) f hf).1 h)
      · obtain ⟨hmissing, rfl, hsource, htext, rfl⟩ := (Node.ofParts_eq_error_iff hf).1 h
        obtain ⟨d, hd, htext⟩ := (Node.text_assembled_iff hparts).1 ⟨hmissing, htext⟩
        exact .text hkind (exists_partsOf_iff.1 ⟨parts, hparts⟩)
          ((Node.truthy_source_assembled hparts).1 hsource) hd htext
    · have hmember {kind : Kind} {front rest : List (String × Data)} {key : String} {d : Data}
          (hread : ∀ m ∈ front, ∃ part?, partOf kind m.1 m.2 = .ok part?)
          (h : partOf kind key d = .error f) :
          partsOf kind (front ++ (key, d) :: rest) = .error f :=
        (readsEach_partsOf kind).eq_error_iff.2 ⟨front, (key, d), rest, rfl, hread, h⟩
      intro hstray
      cases hstray with
      | place hkind hread h =>
        exact ⟨_, hkind, Or.inl (hmember hread ((partOf_eq_error_iff hf).2 (Or.inl ⟨rfl, h⟩)))⟩
      | type hkind hread htyped h =>
        exact ⟨_, hkind, Or.inl (hmember hread
          ((partOf_eq_error_iff hf).2 (Or.inr (Or.inl ⟨rfl, htyped, h, rfl⟩))))⟩
      | @content front rest key d kind _ hkind hread hkey hother h =>
        have hcontent := (ih (key, d) (by simp) f hf).2 h
        exact ⟨_, hkind, Or.inl (hmember hread
          ((partOf_eq_error_iff hf).2 (Or.inr (Or.inr ⟨hkey, hother, hcontent⟩))))⟩
      | text hkind hread hsource hd htext =>
        obtain ⟨parts, hparts⟩ := exists_partsOf_iff.2 hread
        obtain ⟨hmissing, htext⟩ := (Node.text_assembled_iff hparts).2 ⟨_, hd, htext⟩
        have hsource := (Node.truthy_source_assembled hparts).2 hsource
        exact ⟨_, hkind, Or.inr ⟨parts, hparts,
          (Node.ofParts_eq_error_iff hf).2 ⟨hmissing, rfl, hsource, htext, rfl⟩⟩⟩
  | list ds ih =>
    intro f hf
    rw [ofExchange, Fault.bind_pure_eq_error_iff, readsEach_itemsOf.eq_error_iff]
    constructor
    · rintro ⟨front, d, rest, rfl, hread, h⟩
      exact .item hread ((ih d (by simp) f hf).1 h)
    · intro hstray
      cases hstray with
      | @item front rest d _ hread h =>
        exact ⟨front, d, rest, rfl, hread, (ih d (by simp) f hf).2 h⟩
  | _ =>
    intro f hf
    rw [ofExchange]
    constructor <;> rintro ⟨⟩

end Value

/-! ### What strays -/

namespace Data

/-- The faults of the data that stray. -/
def strayFaults : List Fault := [.wrongSort, .notWhole, .unbounded, .noProperty]

/-- Lines and columns stray with one of the three faults. -/
theorem StraysAsCoordinate.mem_strayFaults {d : Data} {f : Fault} (h : d.StraysAsCoordinate f) :
    f ∈ strayFaults := by
  cases h <;> decide

/-- Data stray with one of the three faults. -/
theorem Strays.mem_strayFaults {d : Data} {f : Fault} (h : d.Strays f) : f ∈ strayFaults := by
  induction h with
  | item _ _ ih => exact ih
  | place _ _ h =>
    cases h with
    | line h => exact h.mem_strayFaults
    | col _ h => exact h.mem_strayFaults
  | type => decide
  | content _ _ _ _ _ ih => exact ih
  | text => decide

/-- None of the three faults is that of a malformed datum. -/
theorem isMalformed_of_mem_strayFaults {f : Fault} (h : f ∈ strayFaults) :
    f.isMalformed = false := by
  have hall : ∀ f ∈ strayFaults, f.isMalformed = false := by decide
  exact hall f h

end Data

/-- The data that stray as nodes are those that are neither read as one nor found malformed. -/
theorem Node.ofData_eq_error_iff {d : Data} {f : Fault} (hf : f.isMalformed = false) :
    Node.ofData d = .error f ↔ d.StraysAsNode f := by
  cases d with
  | object ms =>
    refine (Value.ofExchange_eq_error_iff _ f hf).trans ⟨.object, ?_⟩
    rintro ⟨h⟩
    exact h
  | _ =>
    refine iff_of_false (Fault.malformed_ne hf) ?_
    rintro ⟨⟩

/-- Any datum is read as a type or found malformed, but the ones that stray, and so for nodes. What
strays ends in the fault that it strays with: something is of a wrong sort, writes no whole number,
is infinite, or lacks the property that is read. -/
theorem Node.ofData_answered_iff (d : Data) :
    (Answered (Ty.ofData d) ↔ ¬d.StraysAsType) ∧
      (d.StraysAsType → Ty.ofData d = .error .wrongSort) ∧
      (Answered (Node.ofData d) ↔ ∀ f, ¬d.StraysAsNode f) ∧
      ∀ f, d.StraysAsNode f → Node.ofData d = .error f ∧ f ∈ Data.strayFaults := by
  have htype (f : Fault) (hf : f.isMalformed = false) := (Ty.ofData_eq_error_iff d f hf).1
  have hfault (f : Fault) (h : d.StraysAsNode f) : f ∈ Data.strayFaults := by
    cases h with
    | object h => exact h.mem_strayFaults
  refine ⟨?_, fun h => (htype _ rfl).2 ⟨h, rfl⟩, ?_, ?_⟩
  · rw [answered_iff]
    constructor
    · exact fun hall h => hall _ rfl ((htype _ rfl).2 ⟨h, rfl⟩)
    · exact fun h f hf hread => h ((htype f hf).1 hread).1
  · rw [answered_iff]
    constructor
    · intro hall f h
      have hf := Data.isMalformed_of_mem_strayFaults (hfault f h)
      exact hall f hf ((Node.ofData_eq_error_iff hf).2 h)
    · exact fun h f hf hread => h f ((Node.ofData_eq_error_iff hf).1 hread)
  · intro f h
    have hf := Data.isMalformed_of_mem_strayFaults (hfault f h)
    exact ⟨(Node.ofData_eq_error_iff hf).2 h, hfault f h⟩

/-- A name on a line and in the first column of it. -/
def nameOnLine (line : Data) : Data :=
  .object [("kind", .text "Identifier"), ("text", .text "x"), ("pos", .list [line, .int 1])]

/-- The line null is not found malformed. -/
theorem Node.not_answered_nameOnLine :
    Node.ofData (nameOnLine .null) = .error .wrongSort ∧
      ¬Answered (Node.ofData (nameOnLine .null)) := by
  have hread : Node.ofData (nameOnLine .null) = .error .wrongSort := rfl
  refine ⟨hread, ?_⟩
  rw [hread]
  rintro (⟨_, ⟨⟩⟩ | ⟨_, ⟨⟩⟩)

/-- A block of a statement that is read and a string literal with null for its text. -/
def untexted : Data :=
  .object [("kind", .text "Block"), ("statements", .list [nameOnLine (.int 3),
    .object [("text", .null), ("kind", .text "StringLiteral")]])]

/-- A string literal without a text strays. -/
theorem untexted_strays : untexted.StraysAsNode .noProperty := by
  have hliteral : (Data.object [("text", .null), ("kind", .text "StringLiteral")]).Strays
      .noProperty := by
    refine .text (d := .null) rfl (Value.exists_partsOf_iff.1 ⟨_, rfl⟩) ?_ rfl rfl
    rintro e ⟨⟩
  have hstatements := @Data.Strays.item [nameOnLine (.int 3)] [] _ _
    (Value.exists_itemsOf_iff.1 ⟨_, rfl⟩) hliteral
  exact .object (@Data.Strays.content [("kind", .text "Block")] [] "statements" _ .block _ rfl
    (Value.exists_partsOf_iff.1 ⟨_, rfl⟩) (by decide) (by decide) hstatements)

/-- A block with a string literal of no text, a union of one number, and a place without a column,
which does not stray. -/
theorem Node.ofData_answered_iff_untexted :
    Node.ofData untexted = .error .noProperty ∧
      ¬Answered (Ty.ofData (.object [("kind", .text "union"), ("members", .int 5)])) ∧
      ∀ f, ¬(Data.object [("kind", .text "Block"), ("pos", .list [.null])]).StraysAsNode f := by
  refine ⟨?_, ?_, ?_⟩
  · exact ((Node.ofData_answered_iff untexted).2.2.2 _ untexted_strays).1
  · rw [(Node.ofData_answered_iff _).1, not_not]
    exact .members rfl rfl (.sort rfl)
  · exact (Node.ofData_answered_iff _).2.2.1.1 (Or.inr ⟨_, rfl⟩)

end CodeSample

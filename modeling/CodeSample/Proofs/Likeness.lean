import CodeSample.Render.Locality
import CodeSample.Render.Output
import Mathlib.Data.List.Forall2

/-!
# Renderings that go alike

Two renderings can be followed side by side: of trees whose nodes stand for one another, by backends
whose rules do, with checkers that agree on them. What standing for one another means is left open
here, for nodes, for fragments of output and for runs. All that is asked is that it fits the ways in
which a rule reads its node and puts its output together.

* `Tally` relates outcomes, and `Agree` those with the same faults;
* `Value.Alike` relates values that are the same but for nodes in them that stand for one another;
  the lemmas below it are what is computed of such values, up to `Alike.sourceText`;
* `Likeness` is a choice of the relations with what is asked of them, and `Likeness.Output` the part
  of it that is about output;
* `Rule.Alike` says that two rules go alike on views that do, and `Likeness.convert`: if the rules
  of two backends go alike, so do the renderings of whole trees;
* `Likeness.ofNodes` is the choice for renderings with the same output, in which only the nodes and
  the places in faults differ.
-/

namespace CodeSample

open Layout (Fragment Indent Style)

variable {α α' β β' : Type}

/-! ### Outcomes -/

/-- Two outcomes tally: both are answers or both are faults, and these correspond. -/
inductive Tally (E : Fault → Fault → Prop) (R : α' → α → Prop) :
    Except Fault α' → Except Fault α → Prop where
  | ok {a' : α'} {a : α} (h : R a' a) : Tally E R (.ok a') (.ok a)
  | error {fault' fault : Fault} (h : E fault' fault) : Tally E R (.error fault') (.error fault)

namespace Tally

variable {E E' : Fault → Fault → Prop} {R R' : α' → α → Prop} {S : β' → β → Prop}
variable {x' : Except Fault α'} {x : Except Fault α}

/-- Outcomes that tally in one sense do so in a wider one. -/
theorem mono (h : Tally E R x' x) (hE : ∀ fault' fault, E fault' fault → E' fault' fault)
    (hR : ∀ a' a, R a' a → R' a' a) : Tally E' R' x' x := by
  cases h with
  | ok h => exact ok (hR _ _ h)
  | error h => exact error (hE _ _ h)

/-- What follows two outcomes tallies if the outcomes do and it tallies on answers that correspond.
-/
theorem bind (h : Tally E R x' x) {next' : α' → Except Fault β'} {next : α → Except Fault β}
    (hnext : ∀ a' a, R a' a → Tally E S (next' a') (next a)) :
    Tally E S (x' >>= next') (x >>= next) := by
  cases h with
  | ok h => exact hnext _ _ h
  | error h => exact error h

/-- Going through two lists of things that correspond, step by step, comes to outcomes that tally.
-/
theorem mapM {as' : List α'} {as : List α} (has : List.Forall₂ R as' as)
    {step' : α' → Except Fault β'} {step : α → Except Fault β}
    (h : ∀ a' a, R a' a → Tally E S (step' a') (step a)) :
    Tally E (List.Forall₂ S) (as'.mapM step') (as.mapM step) := by
  induction has with
  | nil => exact ok .nil
  | cons ha _ ih =>
    rw [List.mapM_cons, List.mapM_cons]
    refine (h _ _ ha).bind fun b' b hb => ih.bind fun bs' bs hbs => ?_
    exact ok (.cons hb hbs)

end Tally

/-- Whether a fault tells where it happened. -/
def Fault.isPlaced : Fault → Bool
  | unsupported .. => true
  | _ => false

/-- Two outcomes agree: they tally, and faults are the same and do not tell where they happened. -/
abbrev Agree (R : α' → α → Prop) : Except Fault α' → Except Fault α → Prop :=
  Tally (fun fault' fault => fault' = fault ∧ fault.isPlaced = false) R

namespace Agree

variable {R : α' → α → Prop}

/-- Two faults about something of the wrong sort agree. -/
theorem wrongSort : Agree R (.error .wrongSort) (.error .wrongSort) := .error ⟨rfl, rfl⟩

/-- Two faults about a property that is not there agree. -/
theorem noProperty : Agree R (.error .noProperty) (.error .noProperty) := .error ⟨rfl, rfl⟩

end Agree

/-! ### Values and nodes -/

/-- Two values are the same but for the nodes in them, and corresponding nodes are related. -/
inductive Value.Alike (N : Node → Node → Prop) : Value → Value → Prop where
  | null : Alike N .null .null
  | bool (b : Bool) : Alike N (.bool b) (.bool b)
  | int (i : Int) : Alike N (.int i) (.int i)
  | float (x : Double) : Alike N (.float x) (.float x)
  | text (s : String) : Alike N (.text s) (.text s)
  | object (ms : List (String × Data)) : Alike N (.object ms) (.object ms)
  | list {vs' vs : List Value} (h : List.Forall₂ (Alike N) vs' vs) : Alike N (.list vs') (.list vs)
  | node {n' n : Node} (h : N n' n) : Alike N n'.toValue n.toValue

/-- Whether rules may read a field. No rule asks for the name of a file, or whether variables are
constant. -/
def Field.isRead : Field → Bool
  | .fileName | .flags => false
  | _ => true

/-- Whether the field that a kind keeps at an index is one that rules may read. -/
def Kind.reads (kind : Kind) (i : Nat) : Bool := (kind.slots[i]?).all (·.field.isRead)

/-- A field that rules may read is kept at an index that counts as read. -/
theorem Kind.reads_of_index? {kind : Kind} {f : Field} {i : Nat} (hi : kind.index? f = some i)
    (hf : f.isRead = true) : kind.reads i = true := by
  obtain ⟨hlt, hslot, -⟩ := List.findIdx?_eq_some_iff_getElem.1 hi
  rw [beq_iff_eq] at hslot
  rw [reads, List.getElem?_eq_getElem hlt, Option.all_some, hslot, hf]

/-- Two nodes are read alike: their kinds are the same, and their sources and the fields that rules
may read are the same but for nodes that are related. Nothing is asked of their places, of their
types and of a source that does not count. -/
structure Node.Alike (N : Node → Node → Prop) (n' n : Node) : Prop where
  kind : n'.kind = n.kind
  truthy : n'.source.truthy = n.source.truthy
  source : n.source.truthy = true → Value.Alike N n'.source n.source
  length : n'.fields.length = n.fields.length
  field : ∀ (i : Nat) (hi' : i < n'.fields.length) (hi : i < n.fields.length),
    n.kind.reads i = true → Value.Alike N n'.fields[i] n.fields[i]

namespace Node.Alike

variable {N : Node → Node → Prop} {n' n : Node} (h : Node.Alike N n' n)
include h

/-- Nodes that are read alike have alike values in every field that rules may read. -/
theorem get {f : Field} (hf : f.isRead = true) : Value.Alike N (n'.get f) (n.get f) := by
  unfold Node.get
  rw [h.kind]
  cases hi : n.kind.index? f with
  | none => exact .null
  | some i =>
    rw [Option.bind_some, Option.bind_some]
    by_cases hlt : i < n.fields.length
    · have hlt' : i < n'.fields.length := h.length ▸ hlt
      rw [List.getElem?_eq_getElem hlt, List.getElem?_eq_getElem hlt']
      exact h.field i hlt' hlt (Kind.reads_of_index? hi hf)
    · have hlt' : ¬i < n'.fields.length := h.length ▸ hlt
      rw [List.getElem?_eq_none (by omega), List.getElem?_eq_none (by omega)]
      exact .null

/-- The fields of a node whose kind has none that is not read. -/
theorem fields (hread : n.kind.slots.all (·.field.isRead) = true) :
    List.Forall₂ (Value.Alike N) n'.fields n.fields := by
  refine List.forall₂_iff_get.2 ⟨h.length, fun i hi' hi => h.field i hi' hi ?_⟩
  unfold Kind.reads
  cases hslot : n.kind.slots[i]? with
  | none => rfl
  | some slot => exact List.all_eq_true.1 hread slot (List.mem_of_getElem? hslot)

end Node.Alike

/-! ### What is computed of values -/

namespace Value

variable {N : Node → Node → Prop} {v' v w' w : Value}

mutual

/-- What holds no nodes is alike itself. -/
theorem alike_ofData : ∀ d : Data, Value.Alike N (ofData d) (ofData d)
  | .null => .null
  | .bool b => .bool b
  | .int i => .int i
  | .float x => .float x
  | .text s => .text s
  | .list ds => .list (alike_ofItems ds)
  | .object ms => .object ms

/-- Items that hold no nodes are alike themselves, one by one. -/
theorem alike_ofItems : ∀ ds : List Data,
    List.Forall₂ (Value.Alike N) (ofItems ds) (ofItems ds)
  | [] => .nil
  | d :: ds => .cons (alike_ofData d) (alike_ofItems ds)

end

mutual

/-- Values that are alike for a relation of nodes are so for a wider one. -/
theorem Alike.mono {M : Node → Node → Prop} (hNM : ∀ n' n, N n' n → M n' n) :
    ∀ {v' v : Value}, Value.Alike N v' v → Value.Alike M v' v
  | _, .null, .null => .null
  | _, .bool b, .bool _ => .bool b
  | _, .int i, .int _ => .int i
  | _, .float x, .float _ => .float x
  | _, .text s, .text _ => .text s
  | _, .object ms, .object _ => .object ms
  | _, .list _, .list h => .list (mono_all hNM h)
  | _, .node _ _ _ _ _, .node h => .node (hNM _ _ h)

/-- Lists of values that are alike for a relation of nodes are so for a wider one. -/
theorem mono_all {M : Node → Node → Prop} (hNM : ∀ n' n, N n' n → M n' n) :
    ∀ {vs' vs : List Value}, List.Forall₂ (Value.Alike N) vs' vs →
      List.Forall₂ (Value.Alike M) vs' vs
  | _, [], .nil => .nil
  | _, _ :: _, .cons h hs => .cons (Alike.mono hNM h) (mono_all hNM hs)

end

namespace Alike

/-- Of two values that are alike, both are nodes that correspond or neither is a node. -/
theorem node? (h : Value.Alike N v' v) : Option.Rel N v'.node? v.node? := by
  cases h with
  | node h => exact .some h
  | _ => exact .none

/-- What is alike a node is a node. -/
theorem exists_node {n : Node} (h : Value.Alike N v' n.toValue) :
    ∃ n' : Node, v' = n'.toValue ∧ N n' n := by
  have hnode := h.node?
  rw [node?_toValue] at hnode
  cases hv : v'.node? with
  | none =>
    rw [hv] at hnode
    cases hnode
  | some n' =>
    rw [hv] at hnode
    cases hnode with
    | some hn => exact ⟨n', (toValue_of_node? hv).symm, hn⟩

/-- Of two values that are alike, both are null or neither is. -/
theorem isNull (h : Value.Alike N v' v) : v'.isNull = v.isNull := by
  cases h <;> rfl

/-- A text is alike only itself. -/
theorem text? (h : Value.Alike N v' v) : v'.text? = v.text? := by
  cases h <;> rfl

/-- Of two values that are alike, both are a certain text or neither is. -/
theorem isText (h : Value.Alike N v' v) (s : String) : v'.isText s = v.isText s := by
  unfold Value.isText
  rw [h.text?]

/-- Values that are alike count as true alike. -/
theorem truthy (h : Value.Alike N v' v) : v'.truthy = v.truthy := by
  cases h with
  | list h => cases h <;> rfl
  | _ => rfl

/-- Values that are alike stay so when a text stands in for those that do not count as true. -/
theorem orElse (h : Value.Alike N v' v) (s : String) :
    Value.Alike N (v'.orElse (.text s)) (v.orElse (.text s)) := by
  unfold Value.orElse
  rw [h.truthy]
  split
  · exact h
  · exact .text s

/-- Values that are alike make the same fragment: a node in them cannot be written anyway. -/
theorem toFragment (h : Value.Alike N v' v) : v'.toFragment = v.toFragment := by
  cases h <;> rfl

/-- Values that are alike enumerate values that are. -/
theorem items (h : Value.Alike N v' v) :
    Agree (List.Forall₂ (Value.Alike N)) v'.items v.items := by
  have characters (ss : List String) :
      List.Forall₂ (Value.Alike N) (ss.map .text) (ss.map .text) := by
    refine List.forall₂_same.2 fun v hv => ?_
    obtain ⟨s, -, rfl⟩ := List.mem_map.1 hv
    exact .text s
  cases h with
  | list h => exact .ok h
  | text s =>
    refine .ok ?_
    have := characters (s.toList.map String.singleton)
    rwa [List.map_map] at this
  | object ms =>
    refine .ok ?_
    have := characters (ms.map Prod.fst)
    rwa [List.map_map] at this
  | _ => exact .wrongSort

/-- Values that are alike are so with a text after them. -/
theorem before (h : Value.Alike N v' v) (s : String) :
    Agree (Value.Alike N) (v'.before s) (v.before s) := by
  cases h with
  | text t => exact .ok (.text _)
  | _ => exact .wrongSort

/-- Values that are alike are so with a text before them. -/
theorem after (s : String) (h : Value.Alike N v' v) :
    Agree (Value.Alike N) (v'.after s) (v.after s) := by
  cases h with
  | text t => exact .ok (.text _)
  | _ => exact .wrongSort

/-- Values that are alike are so between two texts. -/
theorem between (opening closing : String) (h : Value.Alike N v' v) :
    Agree (Value.Alike N) (v'.between opening closing) (v.between opening closing) := by
  unfold Value.between
  exact (after opening h).bind fun _ _ hw => hw.before closing

/-- Values that are alike are joined alike. -/
theorem join (separator : String) {vs' vs : List Value}
    (h : List.Forall₂ (Value.Alike N) vs' vs) :
    Agree (Value.Alike N) (Value.join separator vs') (Value.join separator vs) := by
  have texts : Agree Eq (Value.texts vs') (Value.texts vs) := by
    induction h with
    | nil => exact .ok rfl
    | cons hv _ ih =>
      cases hv with
      | text s =>
        refine ih.bind ?_
        rintro _ ss rfl
        exact .ok rfl
      | _ => exact .wrongSort
  refine texts.bind ?_
  rintro _ ss rfl
  exact .ok (.text _)

/-- Values that are alike are the same number, or no number for the same reason. -/
theorem double (h : Value.Alike N v' v) : Agree Eq v'.double v.double := by
  have same (u : Value) : Agree Eq u.double u.double := by
    unfold Value.double
    split
    · exact .ok rfl
    · split
      · exact .ok rfl
      · exact .error ⟨rfl, rfl⟩
    · exact .wrongSort
  cases h with
  | bool b => exact same (.bool b)
  | int i => exact same (.int i)
  | float x => exact same (.float x)
  | _ => exact .wrongSort

/-- The sums of values that are alike are alike. -/
theorem add (hv : Value.Alike N v' v) (hw : Value.Alike N w' w) :
    Agree (Value.Alike N) (v'.add w') (v.add w) := by
  have doubles : Agree (Value.Alike N)
      (do return .float ((← v'.double).add (← w'.double)))
      (do return .float ((← v.double).add (← w.double))) := by
    refine hv.double.bind ?_
    rintro x _ rfl
    refine hw.double.bind ?_
    rintro y _ rfl
    exact .ok (.float _)
  cases hv with
  | list hvs =>
    cases hw with
    | list hws => exact .ok (.list (List.rel_append hvs hws))
    | _ => exact .wrongSort
  | text s =>
    cases hw with
    | text t => exact .ok (.text _)
    | _ => exact .wrongSort
  | bool | int | float =>
    -- two whole numbers, two numbers, or nothing that can be added
    cases hw with
    | bool | int | float => first | exact .ok (.int _) | exact doubles
    | _ => exact .wrongSort
  | _ => cases hw <;> exact .wrongSort

end Alike

/-! ### Nodes among values -/

section

variable (hN : ∀ {n' n : Node}, N n' n → Node.Alike N n' n)
include hN

/-- Of two values that are alike, both are nodes of a kind or neither is. -/
theorem Alike.isKind (h : Value.Alike N v' v) (k : Kind) : v'.isKind k = v.isKind k := by
  cases h with
  | node h => exact congrArg (fun kind => some kind == some k) (hN h).kind
  | _ => rfl

/-- Values that are alike have alike properties, in the fields that rules may read. -/
theorem Alike.property (h : Value.Alike N v' v) {f : Field} (hf : f.isRead = true) :
    Agree (Value.Alike N) (v'.property f) (v.property f) := by
  cases h with
  | @node n' n h =>
    unfold Value.property
    rw [node?_toValue, node?_toValue]
    dsimp only
    rw [(hN h).kind]
    split
    · exact .ok ((hN h).get hf)
    · exact .noProperty
  | _ => exact .noProperty

/-- Two values have source texts that are alike, and so have the values that they enumerate. -/
structure SourceAlike (N : Node → Node → Prop) (v' v : Value) : Prop where
  one : Agree (Value.Alike N) v'.sourceText v.sourceText
  many : Agree (List.Forall₂ (Value.Alike N)) v'.sourceTextsOf v.sourceTextsOf

/-- The source texts of two nodes are alike if that holds of their parts. -/
theorem alike_sourceText_node {n' n : Node} (h : Node.Alike N n' n)
    (hparts : ∀ v ∈ n.fields, ∀ v', Value.Alike N v' v → SourceAlike N v' v) :
    Agree (Value.Alike N) n'.toValue.sourceText n.toValue.sourceText := by
  obtain ⟨kind', pos', source', type', fields'⟩ := n'
  obtain ⟨kind, pos, source, type?, fields⟩ := n
  obtain rfl : kind' = kind := h.kind
  unfold Node.toValue sourceText
  rw [show source'.truthy = source.truthy from h.truthy]
  by_cases hsource : source.truthy = true
  · rw [if_pos hsource, if_pos hsource]
    exact .ok (h.source hsource)
  rw [if_neg hsource, if_neg hsource]
  -- only some kinds are put together from their parts, and only if there are as many as there
  -- should be
  cases kind' <;> try exact .ok (.text _)
  all_goals
    have hfields := h.fields rfl
    dsimp only at hfields hparts
  case propertyAccessExpression =>
    rcases hfields with _ | ⟨he, _ | ⟨hname, _ | ⟨_, _⟩⟩⟩ <;> try exact .ok (.text _)
    refine (hparts _ (by simp) _ he).one.bind fun _ _ hs => ?_
    refine (hs.before ".").bind fun _ _ hreceiver => ?_
    refine (hname.property hN rfl).bind fun _ _ ht => ?_
    exact hreceiver.add ht
  case elementAccessExpression =>
    rcases hfields with _ | ⟨he, _ | ⟨ha, _ | ⟨_, _⟩⟩⟩ <;> try exact .ok (.text _)
    refine (hparts _ (by simp) _ he).one.bind fun _ _ hs => ?_
    refine (hs.before "[").bind fun _ _ hreceiver => ?_
    refine (hparts _ (by simp) _ ha).one.bind fun _ _ ht => ?_
    exact (hreceiver.add ht).bind fun _ _ hu => hu.before "]"
  case callExpression =>
    rcases hfields with _ | ⟨he, _ | ⟨ha, _ | ⟨_, _⟩⟩⟩ <;> try exact .ok (.text _)
    refine (hparts _ (by simp) _ ha).many.bind fun _ _ hss => ?_
    refine (Alike.join ", " hss).bind fun _ _ hlisted => ?_
    refine (hparts _ (by simp) _ he).one.bind fun _ _ hs => ?_
    refine (hs.before "(").bind fun _ _ hcallee => ?_
    exact (hcallee.add hlisted).bind fun _ _ ht => ht.before ")"
  case parenthesizedExpression =>
    rcases hfields with _ | ⟨he, _ | ⟨_, _⟩⟩ <;> try exact .ok (.text _)
    exact (hparts _ (by simp) _ he).one.bind fun _ _ hs => hs.between "(" ")"
  case binaryExpression =>
    rcases hfields with _ | ⟨hl, _ | ⟨ho, _ | ⟨hr, _ | ⟨_, _⟩⟩⟩⟩ <;> try exact .ok (.text _)
    refine (hparts _ (by simp) _ hl).one.bind fun _ _ hleft => ?_
    refine (hleft.before " ").bind fun _ _ hleft => ?_
    refine (hleft.add ho).bind fun _ _ hleft => ?_
    refine (hleft.before " ").bind fun _ _ hleft => ?_
    refine (hparts _ (by simp) _ hr).one.bind fun _ _ hright => ?_
    exact hleft.add hright
  case prefixUnaryExpression =>
    rcases hfields with _ | ⟨ho, _ | ⟨he, _ | ⟨_, _⟩⟩⟩ <;> try exact .ok (.text _)
    refine (hparts _ (by simp) _ he).one.bind fun _ _ hs => ?_
    exact ho.add hs

end

mutual

/-- Values that are alike have source texts that are, by induction on the one of them. -/
theorem sourceAlike (hN : ∀ {n' n : Node}, N n' n → Node.Alike N n' n) :
    ∀ v v' : Value, Value.Alike N v' v → SourceAlike N v' v
  | .null, _, .null | .bool _, _, .bool _ | .int _, _, .int _ | .float _, _, .float _ =>
    ⟨.noProperty, .wrongSort⟩
  | .text s, _, .text _ => by
    refine ⟨.noProperty, ?_⟩
    unfold sourceTextsOf
    split
    · exact .ok .nil
    · exact .noProperty
  | .object ms, _, .object _ => by
    refine ⟨.noProperty, ?_⟩
    unfold sourceTextsOf
    split
    · exact .ok .nil
    · exact .noProperty
  | .list vs, _, .list h => ⟨.noProperty, (sourceAlike_all hN vs).2 _ h⟩
  | .node kind pos source type? fields, v', h => by
    let n : Node := ⟨kind, pos, source, type?, fields⟩
    obtain ⟨n', rfl, hn⟩ := Alike.exists_node (show Value.Alike N v' n.toValue from h)
    exact ⟨alike_sourceText_node hN (hN hn) (sourceAlike_all hN fields).1, .wrongSort⟩

/-- The same of the values in two lists, and of the lists of their source texts. -/
theorem sourceAlike_all (hN : ∀ {n' n : Node}, N n' n → Node.Alike N n' n) :
    ∀ vs : List Value,
    (∀ v ∈ vs, ∀ v', Value.Alike N v' v → SourceAlike N v' v) ∧
    ∀ vs', List.Forall₂ (Value.Alike N) vs' vs →
      Agree (List.Forall₂ (Value.Alike N)) (sourceTexts vs') (sourceTexts vs)
  | [] => by
    refine ⟨by simp, ?_⟩
    rintro _ (_ | _)
    exact .ok .nil
  | v :: vs => by
    refine ⟨List.forall_mem_cons.2 ⟨sourceAlike hN v, (sourceAlike_all hN vs).1⟩, ?_⟩
    rintro _ (_ | ⟨hv, hvs⟩)
    rw [sourceTexts, sourceTexts]
    refine (sourceAlike hN v _ hv).one.bind fun _ _ hs => ?_
    refine ((sourceAlike_all hN vs).2 _ hvs).bind fun _ _ hss => ?_
    exact .ok (.cons hs hss)

end

/-- The source texts of values that are alike are alike. -/
theorem Alike.sourceText (hN : ∀ {n' n : Node}, N n' n → Node.Alike N n' n)
    (h : Value.Alike N v' v) : Agree (Value.Alike N) v'.sourceText v.sourceText :=
  (sourceAlike hN v v' h).one

end Value

/-! ### What renderings have in common -/

/-- What the outputs of two renderings have in common: which fragments and indentations stand for
one another. Fragments that do are put together from such fragments. -/
structure Likeness.Output where
  fragment : Fragment → Fragment → Prop
  indent : Indent → Indent → Prop
  nothing : fragment .nothing .nothing
  text : ∀ s : String, fragment (.text s) (.text s)
  alien : fragment .alien .alien
  tree : ∀ {front' front children' children : List Fragment} {i' i : Indent} (style : Style),
    List.Forall₂ fragment front' front → List.Forall₂ fragment children' children → indent i' i →
      fragment (.tree front' children' { style with indent := i' })
        (.tree front children { style with indent := i })
  isEmpty : ∀ {f' f : Fragment}, fragment f' f → f'.isEmpty = f.isEmpty
  blank : indent (.blanks 0) (.blanks 0)

/-- What two renderings have in common: what their outputs have, and which nodes stand for one
another, and which runs do, for what their answers have to do with one another. Nodes that do are
read alike, and runs that do go through the same steps. -/
structure Likeness extends Likeness.Output where
  node : Node → Node → Prop
  run : ∀ {α' α : Type}, (α' → α → Prop) → Run α' → Run α → Prop
  alike : ∀ {n' n : Node}, node n' n → Node.Alike node n' n
  pure : ∀ {α' α : Type} {R : α' → α → Prop} {a' : α'} {a : α}, R a' a →
    run R (Pure.pure a') (Pure.pure a)
  bind : ∀ {α' α β' β : Type} {R : α' → α → Prop} {S : β' → β → Prop} {r' : Run α'} {r : Run α}
    {next' : α' → Run β'} {next : α → Run β}, run R r' r →
      (∀ a' a, R a' a → run S (next' a') (next a)) → run S (r' >>= next') (r >>= next)
  ofExcept : ∀ {α' α : Type} {R : α' → α → Prop} {x' : Except Fault α'} {x : Except Fault α},
    Agree R x' x → run R (liftM x') (liftM x)
  report : ∀ {n' n : Node} (message : Data), node n' n →
    run (fun _ _ => True) (Run.report n'.toValue message) (Run.report n.toValue message)
  refuse : ∀ {α' α : Type} {R : α' → α → Prop} {n' n : Node} (visitor : String), node n' n →
    run R (.fail (.unsupported visitor n'.kind n'.pos)) (.fail (.unsupported visitor n.kind n.pos))

namespace Likeness

variable {L : Likeness} {R : α' → α → Prop} {S : β' → β → Prop}

/-! ### Output -/

/-- Values that are alike make fragments that stand for one another. -/
theorem toFragment (L : Likeness) {N : Node → Node → Prop} {v' v : Value}
    (h : Value.Alike N v' v) : L.fragment v'.toFragment v.toFragment := by
  rw [h.toFragment]
  cases v with
  | null => exact L.nothing
  | text s => exact L.text s
  | _ => exact L.alien

variable {front' front children' children : List Fragment}

/-- Rows of fragments that stand for one another do so. -/
theorem row (h : List.Forall₂ L.fragment front' front) :
    L.fragment (.row front') (.row front) :=
  L.tree {} h .nil L.blank

/-- Lines of fragments that stand for one another do so. -/
theorem line (h : List.Forall₂ L.fragment front' front) :
    L.fragment (.line front') (.line front) :=
  L.tree { fresh := true } h .nil L.blank

/-- Blocks of fragments that stand for one another do so. -/
theorem block (h : List.Forall₂ L.fragment children' children) :
    L.fragment (.block children') (.block children) :=
  L.tree {} .nil h L.blank

/-- Fragments that stand for one another do so with the same separator between them. -/
theorem separated (separator : String) (h : List.Forall₂ L.fragment children' children) :
    L.fragment (.separated separator children') (.separated separator children) :=
  L.tree { separator := some separator } .nil h L.blank

/-! ### Runs -/

/-- Runs go alike after outcomes that agree, if they do on answers that correspond. -/
theorem bind_ofExcept (L : Likeness) {x' : Except Fault α'} {x : Except Fault α}
    (h : Agree R x' x) {next' : α' → Run β'} {next : α → Run β}
    (hnext : ∀ a' a, R a' a → L.run S (next' a') (next a)) :
    L.run S (liftM x' >>= next') (liftM x >>= next) :=
  L.bind (L.ofExcept h) hnext

/-- Going through two lists of things that correspond goes alike if each step does. -/
theorem mapM (L : Likeness) {as' : List α'} {as : List α} (has : List.Forall₂ R as' as)
    {step' : α' → Run β'} {step : α → Run β}
    (h : ∀ a' a, R a' a → L.run S (step' a') (step a)) :
    L.run (List.Forall₂ S) (as'.mapM step') (as.mapM step) := by
  induction has with
  | nil => exact L.pure .nil
  | cons ha _ ih =>
    rw [List.mapM_cons, List.mapM_cons]
    refine L.bind (h _ _ ha) fun b' b hb => L.bind ih fun bs' bs hbs => ?_
    exact L.pure (.cons hb hbs)

/-- Two checkers have the same answers to what rules ask about nodes that stand for one another: the
types of their annotations, of what initializes them, and of object literals. What a loop declares
is no expression, and nobody asks for its type. -/
structure Checkers (L : Likeness) (checker' checker : Checker) : Prop where
  ascribed : ∀ {n' n : Node}, L.node n' n →
    L.run Eq (liftM (checker'.ascribed? (n'.get .type))) (liftM (checker.ascribed? (n.get .type)))
  inferred : ∀ {n' n : Node}, L.node n' n → n.kind ≠ .forOfStatement →
    L.run Eq (liftM (checker'.inferred? (n'.get .initializer)))
      (liftM (checker.inferred? (n.get .initializer)))
  literal : ∀ {n' n : Node}, L.node n' n → n.kind = .objectLiteralExpression →
    L.run Eq (liftM (checker'.typeOfExpression n'.toValue))
      (liftM (checker.typeOfExpression n.toValue))

end Likeness

/-! ### Views, rules and backends -/

variable {C : Type} {L : Likeness} {K : C → C → Prop}

/-- Two views go alike: their contexts correspond, their checkers have the same answers, and what is
alike is rendered alike. -/
structure View.Alike (L : Likeness) (K : C → C → Prop) (view' view : View C) : Prop where
  context : K view'.context view.context
  checkers : L.Checkers view'.checker view.checker
  convertIn : ∀ {c' c : C}, K c' c → ∀ {v' v : Value}, Value.Alike L.node v' v →
    L.run L.fragment (view'.convertIn c' v') (view.convertIn c v)

namespace View.Alike

variable {view' view : View C} (h : View.Alike L K view' view) {n' n : Node}
include h

/-- What is alike is rendered alike by views that go alike. -/
theorem convert {v' v : Value} (hv : Value.Alike L.node v' v) :
    L.run L.fragment (view'.convert v') (view.convert v) :=
  h.convertIn h.context hv

/-- What two values enumerate is rendered alike, one by one, if the values are alike. -/
theorem convertAll {v' v : Value} (hv : Value.Alike L.node v' v) :
    L.run (List.Forall₂ L.fragment) (view'.convertAll v') (view.convertAll v) := by
  unfold View.convertAll
  exact L.bind_ofExcept hv.items fun _ _ hvs => L.mapM hvs fun _ _ hw => h.convert hw

/-- The content of a field is rendered alike. -/
theorem field (hn : L.node n' n) {f : Field} (hf : f.isRead = true) :
    L.run L.fragment (view'.convert (n'.get f)) (view.convert (n.get f)) :=
  h.convert ((L.alike hn).get hf)

/-- What a field enumerates is rendered alike. -/
theorem items (hn : L.node n' n) {f : Field} (hf : f.isRead = true) :
    L.run (List.Forall₂ L.fragment) (view'.convertAll (n'.get f)) (view.convertAll (n.get f)) :=
  h.convertAll ((L.alike hn).get hf)

/-- The views with other contexts that correspond. -/
theorem withContext {c' c : C} (hc : K c' c) :
    View.Alike L K (view'.withContext c') (view.withContext c) :=
  ⟨hc, h.checkers, h.convertIn⟩

end View.Alike

/-- Two rules for a kind of node go alike on views that do. -/
def Rule.Alike (L : Likeness) (K : C → C → Prop) (kind : Kind) (rule' rule : Rule C) : Prop :=
  ∀ {view' view : View C}, View.Alike L K view' view → ∀ {n' n : Node}, L.node n' n →
    n.kind = kind → L.run L.fragment (rule' view' n') (rule view n)

/-- Two backends go alike: they visit nodes that stand for one another alike. -/
def Backend.Alike (L : Likeness) (K : C → C → Prop) (backend' backend : Backend C) : Prop :=
  ∀ view' view : View C, View.Alike L K view' view → ∀ n' n : Node, L.node n' n →
    L.run L.fragment (backend'.visit view' n') (backend.visit view n)

/-- Backends of one name go alike if their rules do. -/
theorem Backend.alike_of_rules {backend' backend : Backend C} (hname : backend'.name = backend.name)
    (hrules : ∀ kind,
      Option.Rel (Rule.Alike L K kind) (backend'.rule? kind) (backend.rule? kind)) :
    Backend.Alike L K backend' backend := by
  intro view' view h n' n hn
  have hrefuse := L.refuse (R := L.fragment) backend.name hn
  have hrule := hrules n.kind
  unfold Backend.visit
  rw [(L.alike hn).kind] at hrefuse ⊢
  rw [hname]
  generalize backend'.rule? n.kind = rule'?, backend.rule? n.kind = rule? at hrule
  cases hrule with
  | none => exact hrefuse
  | some hrule => exact hrule h hn rfl

namespace Likeness

variable {backend' backend : Backend C} {checker' checker : Checker}
variable (h : Backend.Alike L K backend' backend) (hcheckers : L.Checkers checker' checker)
include h hcheckers

/-- With the depth bounded, what is alike is rendered alike by backends whose rules go alike, by
induction on the depth. -/
theorem convertWithin (depth : Nat) {c' c : C} (hc : K c' c) {v' v : Value}
    (hv : Value.Alike L.node v' v) :
    L.run L.fragment (backend'.convertWithin checker' depth c' v')
      (backend.convertWithin checker depth c v) := by
  have noProperty : L.run L.fragment (.fail .noProperty) (.fail .noProperty) :=
    L.ofExcept Agree.noProperty
  induction depth generalizing c' c v' v with
  | zero =>
    cases hv with
    | null => exact L.pure (L.tree {} .nil .nil L.blank)
    | _ => exact noProperty
  | succ depth ih =>
    cases hv with
    | null => exact L.pure (L.tree {} .nil .nil L.blank)
    | node hn => exact h _ _ ⟨hc, hcheckers, fun hc _ _ hv => ih hc hv⟩ _ _ hn
    | _ => exact noProperty

/-- What two backends do with single nodes, they do with whole trees. -/
theorem convert (hlocal' : backend'.IsLocal) (hlocal : backend.IsLocal) {c' c : C} (hc : K c' c)
    {v' v : Value} (hv : Value.Alike L.node v' v) :
    L.run L.fragment (backend'.convert checker' c' v') (backend.convert checker c v) := by
  have hwithin := convertWithin h hcheckers (max v'.depth v.depth) hc hv
  rwa [Backend.convertWithin_eq hlocal' _ _ _ _ (Nat.le_max_left ..),
    Backend.convertWithin_eq hlocal _ _ _ _ (Nat.le_max_right ..)] at hwithin

end Likeness

/-! ### Runs that report the same -/

/-- Two diagnostics say the same of nodes that stand for one another. -/
structure Diagnostic.Alike (N : Node → Node → Prop) (d' d : Diagnostic) : Prop where
  node : N d'.node d.node
  message : d'.message = d.message

/-- Two runs go alike: they report the same, one after the other, and their outcomes tally. -/
structure Run.Alike (N : Node → Node → Prop) (E : Fault → Fault → Prop) (R : α' → α → Prop)
    (r' : Run α') (r : Run α) : Prop where
  reports : List.Forall₂ (Diagnostic.Alike N) r'.reports r.reports
  outcome : Tally E R r'.outcome r.outcome

/-- Runs go alike if they start alike and go on alike after answers that correspond. -/
theorem Run.Alike.bind {N : Node → Node → Prop} {E : Fault → Fault → Prop} {R : α' → α → Prop}
    {S : β' → β → Prop} {r' : Run α'} {r : Run α} (h : Run.Alike N E R r' r)
    {next' : α' → Run β'} {next : α → Run β}
    (hnext : ∀ a' a, R a' a → Run.Alike N E S (next' a') (next a)) :
    Run.Alike N E S (r' >>= next') (r >>= next) := by
  obtain ⟨reports', outcome'⟩ := r'
  obtain ⟨reports, outcome⟩ := r
  obtain ⟨hreports, houtcome⟩ := h
  cases houtcome with
  | ok ha =>
    obtain ⟨hafter, houtcome⟩ := hnext _ _ ha
    exact ⟨List.rel_append hreports hafter, houtcome⟩
  | error hfault => exact ⟨hreports, .error hfault⟩

/-- The same output. -/
def Likeness.Output.same : Likeness.Output where
  fragment := Eq
  indent := Eq
  nothing := rfl
  text _ := rfl
  alien := rfl
  tree style hfront hchildren hi := by
    rw [List.forall₂_eq_eq_eq] at hfront hchildren
    rw [hfront, hchildren, hi]
  isEmpty h := by rw [h]
  blank := rfl

/-- The likeness of renderings with the same output: on nodes that stand for one another, they
report the same, and they end in the same faults but for the places of such nodes. -/
def Likeness.ofNodes (N : Node → Node → Prop) (alike : ∀ {n' n : Node}, N n' n → Node.Alike N n' n)
    (E : Fault → Fault → Prop) (same : ∀ fault : Fault, fault.isPlaced = false → E fault fault)
    (refuse : ∀ (visitor : String) {n' n : Node}, N n' n →
      E (.unsupported visitor n'.kind n'.pos) (.unsupported visitor n.kind n.pos)) :
    Likeness where
  toOutput := .same
  node := N
  run R r' r := Run.Alike N E R r' r
  alike := alike
  pure h := ⟨.nil, .ok h⟩
  bind h hnext := h.bind hnext
  ofExcept h := by
    refine ⟨.nil, h.mono ?_ fun _ _ h => h⟩
    rintro _ fault ⟨rfl, hplaced⟩
    exact same _ hplaced
  report message hn := ⟨.cons ⟨hn, rfl⟩ .nil, .ok trivial⟩
  refuse visitor hn := ⟨.nil, .error (refuse visitor hn)⟩

/-! ### Finished output -/

/-- Two renderings have the same text, and their diagnostics say the same of nodes that stand for
one another. -/
structure Rendering.Alike (N : Node → Node → Prop) (r' r : Rendering) : Prop where
  text : r'.text = r.text
  diagnostics : List.Forall₂ (Diagnostic.Alike N) r'.diagnostics r.diagnostics

/-- Renderings that are alike for a relation of nodes are so for a wider one. -/
theorem Rendering.Alike.mono {N M : Node → Node → Prop} {r' r : Rendering}
    (h : Rendering.Alike N r' r) (hNM : ∀ n' n, N n' n → M n' n) : Rendering.Alike M r' r :=
  ⟨h.text, h.diagnostics.imp fun _ _ hd => ⟨hNM _ _ hd.node, hd.message⟩⟩

/-- Runs that go alike on the same output give renderings that are alike. -/
theorem Backend.tally_render {N : Node → Node → Prop} {E : Fault → Fault → Prop}
    (same : ∀ fault : Fault, fault.isPlaced = false → E fault fault)
    {backend' backend : Backend C} {checker' checker : Checker} {root' root : Value}
    (h : Run.Alike N E Eq (backend'.convert checker' backend'.initial root')
      (backend.convert checker backend.initial root)) :
    Tally E (Rendering.Alike N) (backend'.render checker' root') (backend.render checker root) := by
  have houtput (f : Fragment) : Tally E Eq f.output f.output := by
    cases hf : f.output with
    | ok text => exact .ok rfl
    | error fault =>
      refine .error (same _ ?_)
      unfold Fragment.output at hf
      split at hf
      · cases hf
      · rename_i obstacle _
        cases hf
        cases obstacle <;> rfl
  unfold Backend.render
  refine h.outcome.bind ?_
  rintro f _ rfl
  refine (houtput f).bind ?_
  rintro text _ rfl
  exact .ok ⟨rfl, h.reports⟩

end CodeSample

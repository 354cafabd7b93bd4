import CodeSample.Proofs.CalleeTexts

/-!
# Chains of accesses and calls

A chain starts from a name or from `this` and goes on by accesses to properties and calls of
methods. Its C# text is written link by link: the root as a local name, then each name capitalised,
with the texts of the arguments in parentheses where it is called, and points in between. From
`this` the first link stands without receiver and point. Whether a call prints and whether a
receiver is `this` is found out from source texts, which hold a point for every link.

* `Node.hasNoSpan` says that nothing was recorded of a node but what its fields hold;
* `Node.IsChain` are the chains of some links from a root, and `Node.IsRoot` says what is written
  for the root;
* `Node.IsChain.source` is what the source text of a chain says about it, and `CSharp.chained` the
  induction over its links;
* `Target.text_chain` is the statement for the finished text.
-/

namespace CodeSample

open Layout (Indent)

/-! ### Trees without recorded spans -/

namespace Node

variable {n : Node}

/-- Whether the source of a node is no more than what a node without one gets. -/
def hasNoSpan (n : Node) : Bool :=
  match n.unrecorded.defaultSource with
  | .ok v => v.text? == n.source.text?
  | .error _ => false

/-- A tree of the language without recorded spans. -/
def IsUnspanned (n : Node) : Prop :=
  n.toValue.all (fun m => m.isShaped .source && m.hasNoSpan) = true

namespace IsUnspanned

/-- What passes both checks is shaped. -/
theorem isShaped_of_hasNoSpan (m : Node) (h : (m.isShaped .source && m.hasNoSpan) = true) :
    m.isShaped .source = true := by
  rw [Bool.and_eq_true] at h
  exact h.1

variable (h : n.IsUnspanned)
include h

/-- A tree without recorded spans is a tree of the language. -/
theorem isProgram : n.IsProgram := Value.all_mono isShaped_of_hasNoSpan h

/-- The root of a tree without recorded spans is shaped. -/
theorem isShaped : n.isShaped .source = true := isShaped_of_all isShaped_of_hasNoSpan h

/-- A node without a recorded span has a value for each field of its kind. -/
theorem length_fields : n.fields.length = n.kind.slots.length :=
  length_of_isShaped h.isShaped Grammar.length_source

/-- The source of a node is the text that it gets without one. -/
theorem source {s : String} (hs : n.unrecorded.defaultSource = .ok (.text s)) :
    n.source = .text s := by
  have hspan := ((Value.all_toValue n).1 h).1
  rw [Bool.and_eq_true, Node.hasNoSpan, hs] at hspan
  obtain ⟨t, ht⟩ := Node.source_of_isShaped h.isShaped
  rw [ht] at hspan ⊢
  have hsame : some s = some t := eq_of_beq hspan.2
  rw [Option.some.inj hsame]

/-- Only names, literals and annotations get a source without a recorded one. -/
theorem truthy_source (hk : n.kind ∉ [.identifier, .numericLiteral, .stringLiteral, .typeNode]) :
    n.source.truthy = false := by
  rw [h.source (defaultSource_of_other (n := n.unrecorded) hk)]
  rfl

end IsUnspanned

/-- A tree of the language without recorded spans, whose names, numbers and operators hold no white
space. -/
def IsBuilt (n : Node) : Prop :=
  n.toValue.all (fun m => m.isShaped .source && m.isUnspaced && m.hasNoSpan) = true

namespace IsBuilt

/-- A built tree is unspaced. -/
theorem isUnspacedProgram (h : n.IsBuilt) : n.IsUnspacedProgram :=
  Value.all_mono (fun _ hm => (Bool.and_eq_true _ _ ▸ hm).1) h

/-- A built tree has no recorded spans. -/
theorem isUnspanned (h : n.IsBuilt) : n.IsUnspanned := by
  refine Value.all_mono (fun m hm => ?_) h
  rw [Bool.and_eq_true, Bool.and_eq_true] at hm
  rw [hm.1.1, hm.2, Bool.and_self]

/-- What stands in a field of a built tree is built. -/
theorem get {e : Node} {f : Field} (h : n.IsBuilt) (he : n.get f = e.toValue) : e.IsBuilt := by
  have := Value.all_get h f
  rwa [he] at this

/-- The source text of a name is the name. -/
theorem sourceText_identifier (h : n.IsBuilt) (hk : n.kind = .identifier) {s : String}
    (hs : n.get .text = .text s) : n.toValue.sourceText = .ok (.text s) := by
  obtain ⟨t, ht, hunspaced⟩ := h.isUnspacedProgram.text hk
  obtain rfl := Value.text.inj (hs.symm.trans ht)
  have hsource : n.unrecorded.defaultSource = .ok (.text s) :=
    (defaultSource_of_named (n := n.unrecorded) (by simp [unrecorded, hk])).trans (congrArg _ hs)
  exact sourceText_of_source (h.isUnspanned.source hsource) (Text.isUnspaced_iff.1 hunspaced).1

end IsBuilt

end Node

/-! ### Chains -/

/-- A link of a chain: the name of a property, and if it is a method that is called, the
arguments. -/
structure Link where
  name : String
  arguments? : Option (List Value)

/-- What is written for a link, by the texts of its arguments. -/
def Link.text (text : Value → Except Fault String) : Link → Except Fault String
  | ⟨name, none⟩ => .ok (Text.upperFirst name)
  | ⟨name, some vs⟩ => do
    return Text.upperFirst name ++ "(" ++ ", ".intercalate (← vs.mapM text) ++ ")"

/-- A text is not another one. -/
theorem Value.isText_of_ne {s t : String} (h : s ≠ t) : (text s).isText t = false := by
  simpa [isText, text?] using h

namespace Node

/-- An access to a property by its name. -/
structure IsAccess (n receiver : Node) (s : String) : Prop where
  kind : n.kind = .propertyAccessExpression
  receiver : n.get .expression = receiver.toValue
  name : (n.get .name).property .text = .ok (.text s)

/-- A chain of links from a root. -/
inductive IsChain (root : Node) : List Link → Node → Prop where
  | root : IsChain root [] root
  | access {links : List Link} {receiver n : Node} {s : String} :
    IsChain root links receiver → n.IsAccess receiver s →
    IsChain root (links ++ [⟨s, none⟩]) n
  | call {links : List Link} {receiver callee n : Node} {s : String} {vs : List Value} :
    IsChain root links receiver → callee.IsAccess receiver s → n.kind = .callExpression →
    n.get .expression = callee.toValue → n.get .arguments = .list vs →
    IsChain root (links ++ [⟨s, some vs⟩]) n

/-- What a chain starts from, with what is written for it: a name other than three, or `this`, for
which nothing is written. -/
inductive IsRoot : Node → List String → Prop where
  | name {n : Node} {s : String} : n.kind = .identifier → n.get .text = .text s →
    s ∉ ["console", "this", "undefined"] → IsRoot n [CSharp.safeName s]
  | this {n : Node} : n.kind = .thisKeyword → IsRoot n []

/-! ### Source texts of chains -/

variable {root n receiver callee : Node} {links : List Link} {s t : String} {words : List String}

/-- The source text of an access is that of its receiver, a point and the name. -/
theorem sourceText_access (hn : n.IsBuilt) (h : n.IsAccess receiver s)
    (ht : receiver.toValue.sourceText = .ok (.text t)) :
    n.toValue.sourceText = .ok (.text (t ++ "." ++ s)) := by
  have hsource := hn.isUnspanned.truthy_source (by rw [h.kind]; decide)
  rw [Value.sourceText_eq_propertyAccess hsource hn.isUnspanned.length_fields h.kind, h.receiver,
    ht, h.name]
  rfl

/-- The source text of a call starts with that of the callee and goes on in parentheses. -/
theorem exists_sourceText_call (hn : n.IsBuilt) (hk : n.kind = .callExpression)
    (hcallee : n.get .expression = callee.toValue)
    (ht : callee.toValue.sourceText = .ok (.text t)) :
    ∃ u, n.toValue.sourceText = .ok (.text (t ++ "(" ++ u ++ ")")) := by
  have hsource := hn.isUnspanned.truthy_source (by rw [hk]; decide)
  obtain ⟨vs, hvs, hall⟩ := many_of_all isShaped_of_isUnspaced hn.isUnspacedProgram
    (f := .arguments) (by rw [hk]; rfl)
  obtain ⟨ss, hss, -⟩ := Value.sourceTexts_of_hasSource (p := fun _ => true) fun v hv => by
    obtain ⟨m, rfl, hm, -⟩ := hall v hv
    obtain ⟨s, hs⟩ := exists_text (IsUnspacedProgram.isProgram hm)
    exact ⟨s, hs, fun _ _ => rfl⟩
  refine ⟨", ".intercalate ss, ?_⟩
  rw [Value.sourceText_eq_call hsource hn.isUnspanned.length_fields hk, hcallee, ht, hvs,
    Value.sourceTextsOf, hss]
  change (Value.join ", " (ss.map Value.text) >>= _) = _
  rw [Value.join_map_text]
  rfl

/-- What has a point in its source text is not `this`. -/
theorem isThis_of_point (hk : n.kind ≠ .thisKeyword) (ht : n.toValue.sourceText = .ok (.text t))
    (hpoint : '.' ∈ t.toList) : CSharp.isThis n.toValue = .ok false := by
  have hne : t ≠ "this" := by
    rintro rfl
    exact absurd hpoint (by decide)
  unfold CSharp.isThis
  rw [if_neg (by simpa [Value.isKind, Value.kind?] using hk), ht]
  exact congrArg Except.ok (Value.isText_of_ne hne)

/-- The source text of a root: it is not `console`, and it is `this` only for the keyword. -/
theorem IsRoot.source (h : root.IsRoot words) (hn : root.IsBuilt) :
    ∃ t, root.toValue.sourceText = .ok (.text t) ∧ t ≠ "console" ∧
      CSharp.isThis root.toValue = .ok words.isEmpty := by
  cases h with
  | name hk hs hnot =>
    rename_i s
    simp only [List.mem_cons, List.not_mem_nil, or_false, not_or] at hnot
    obtain ⟨hconsole, hthis, -⟩ := hnot
    have hsource := hn.sourceText_identifier hk hs
    refine ⟨s, hsource, hconsole, ?_⟩
    unfold CSharp.isThis
    rw [if_neg (by simp [Value.isKind, Value.kind?, hk]), hsource]
    exact congrArg Except.ok (Value.isText_of_ne hthis)
  | this hk =>
    have hsource := hn.isUnspanned.truthy_source (by rw [hk]; decide)
    refine ⟨"this", ?_, by decide, ?_⟩
    · rw [Value.sourceText_eq_keyword hsource hn.isUnspanned.length_fields (by rw [hk]; decide), hk]
      rfl
    · unfold CSharp.isThis
      rw [if_pos (by simp [Value.isKind, Value.kind?, hk])]
      rfl

/-- The source text of a chain: it is not `console`, and behind a link it is not `this`. -/
theorem IsChain.source (h : IsChain root links n) (hroot : root.IsRoot words) (hn : n.IsBuilt) :
    ∃ t, n.toValue.sourceText = .ok (.text t) ∧ t ≠ "console" ∧
      (links ≠ [] → CSharp.isThis n.toValue = .ok false) := by
  have linked {m : Node} {t : String} {ls : List Link} (hk : m.kind ≠ .thisKeyword)
      (ht : m.toValue.sourceText = .ok (.text t)) (hpoint : '.' ∈ t.toList) :
      ∃ t, m.toValue.sourceText = .ok (.text t) ∧ t ≠ "console" ∧
        (ls ≠ [] → CSharp.isThis m.toValue = .ok false) := by
    refine ⟨t, ht, ?_, fun _ => isThis_of_point hk ht hpoint⟩
    rintro rfl
    exact absurd hpoint (by decide)
  induction h with
  | root =>
    obtain ⟨t, ht, hconsole, -⟩ := hroot.source hn
    exact ⟨t, ht, hconsole, fun hne => absurd rfl hne⟩
  | access _ haccess ih =>
    obtain ⟨t, ht, -⟩ := ih (hn.get haccess.receiver)
    refine linked (by rw [haccess.kind]; decide) (sourceText_access hn haccess ht) ?_
    simp
  | call _ hcallee hk he _ ih =>
    have hbuilt := hn.get he
    obtain ⟨t, ht, -⟩ := ih (hbuilt.get hcallee.receiver)
    obtain ⟨u, hu⟩ := exists_sourceText_call hn hk he (sourceText_access hbuilt hcallee ht)
    refine linked (by rw [hk]; decide) hu ?_
    simp

/-- A method that is called on a chain does not print. -/
theorem isPrintCall_access (hcallee : callee.IsBuilt) (h : callee.IsAccess receiver s)
    (ht : receiver.toValue.sourceText = .ok (.text t)) (hne : t ≠ "console") :
    Dispatch.isPrintCall callee.toValue = .ok false := by
  have hother : t ++ "." ++ s ≠ "console.log" := by
    intro heq
    rw [← String.toList_inj] at heq
    have hsplit : "console".toList ++ '.' :: "log".toList = t.toList ++ '.' :: s.toList := by
      simpa using heq.symm
    have := (List.append_cons_inj_of_notMem (by decide) (by decide)).1 hsplit
    exact hne (String.toList_inj.1 this.1.symm)
  unfold Dispatch.isPrintCall
  rw [if_pos (by simp [Value.isKind, Value.kind?, h.kind]), sourceText_access hcallee h ht]
  exact congrArg Except.ok (Value.isText_of_ne hother)

end Node

/-! ### Texts of chains -/

/-- The last of several words stands behind the separator if there are others. -/
theorem Text.intercalate_concat (separator : String) (words : List String) (t : String) :
    separator.intercalate (words ++ [t]) =
      (if words.isEmpty then "" else separator.intercalate words ++ separator) ++ t := by
  cases words with
  | nil => simp
  | cons w words =>
    rw [String.intercalate_append_of_ne_nil (by simp) (by simp), String.intercalate_singleton]
    rfl

namespace CSharp

open Node (IsAccess IsBuilt IsChain IsRoot)

variable {indent : Indent} {preferStruct : Data} {checker : Checker} {root n receiver : Node}
  {links : List Link} {s : String} {vs : List Value} {words written : List String}

/-- What is written for a chain outside of the place of a member, by what is written for its root
and its links: nothing is known of `this` without a link. -/
structure Chained (indent : Indent) (preferStruct : Data) (checker : Checker) (n : Node)
    (written : List String) : Prop where
  isThis : isThis n.toValue = .ok written.isEmpty
  text : written ≠ [] →
    textAt indent preferStruct checker false n.toValue = .ok (".".intercalate written)

/-- A chain with one more link. -/
theorem chained_link {u : String} (hthis : CSharp.isThis n.toValue = .ok false)
    (htext : textAt indent preferStruct checker false n.toValue =
      .ok (".".intercalate (written ++ [u]))) :
    Chained indent preferStruct checker n (written ++ [u]) := by
  refine ⟨?_, fun _ => htext⟩
  rw [hthis]
  cases written <;> rfl

/-- The text of one more link comes behind those of the others. -/
theorem mapM_link {f : Link → Except Fault String} {ts : List String} (hts : links.mapM f = .ok ts)
    {l : Link} {t : String} (ht : f l = .ok t) : (links ++ [l]).mapM f = .ok (ts ++ [t]) := by
  rw [List.mapM_append, hts, List.mapM_cons, ht]
  rfl

/-- Only no links at all have no texts. -/
theorem eq_nil_of_mapM {f : Link → Except Fault String} (h : links.mapM f = .ok []) :
    links = [] := by
  cases links with
  | nil => rfl
  | cons l links =>
    rw [List.mapM_cons] at h
    cases hl : f l with
    | error fault =>
      rw [hl] at h
      cases h
    | ok t =>
      cases hlinks : links.mapM f with
      | error fault =>
        rw [hl, hlinks] at h
        cases h
      | ok ts =>
        rw [hl, hlinks] at h
        cases h

section

variable (preferStruct) (hindent : indent.isWhole = true) (hchecker : checker.IsTabled)
include hindent hchecker

/-- An access on a chain, in either place. -/
theorem textAt_link (hn : n.IsBuilt) (h : n.IsAccess receiver s)
    (hreceiver : Chained indent preferStruct checker receiver written) (member : Bool) :
    textAt indent preferStruct checker member n.toValue =
      .ok (".".intercalate (written ++ [Text.upperFirst s])) := by
  have hthis : CSharp.isThis (n.get .expression) = .ok written.isEmpty :=
    h.receiver ▸ hreceiver.isThis
  obtain ⟨r, this, t, hr, hthat, ht, htext⟩ := textAt_access preferStruct hindent hchecker
    hn.isUnspacedProgram h.kind member
  obtain rfl := Value.text.inj (Except.ok.inj (h.name.symm.trans hr))
  obtain rfl := Except.ok.inj (hthis.symm.trans hthat)
  rw [htext, Text.intercalate_concat]
  cases written with
  | nil => rfl
  | cons w written =>
    have hsame := hreceiver.text (by simp)
    rw [← h.receiver, ht] at hsame
    rw [Except.ok.inj hsame]

/-- A method that is called on a chain. -/
theorem textAt_linkCall {callee : Node} (hn : n.IsBuilt) (hk : n.kind = .callExpression)
    (he : n.get .expression = callee.toValue) (hvs : n.get .arguments = .list vs)
    (h : callee.IsAccess receiver s)
    (hprint : Dispatch.isPrintCall callee.toValue = .ok false)
    (hreceiver : Chained indent preferStruct checker receiver written) :
    ∃ ts, vs.mapM (textAt indent preferStruct checker false) = .ok ts ∧
      textAt indent preferStruct checker false n.toValue = .ok (".".intercalate
        (written ++ [Text.upperFirst s ++ "(" ++ ", ".intercalate ts ++ ")"])) := by
  obtain ⟨t, ts, ht, hts, htext⟩ := textAt_call preferStruct hindent hchecker
    hn.isUnspacedProgram hk (he ▸ hprint) hvs false
  refine ⟨ts, hts, ?_⟩
  rw [he, textAt_link preferStruct hindent hchecker (hn.get he) h hreceiver true] at ht
  rw [htext, ← Except.ok.inj ht, Text.intercalate_concat, Text.intercalate_concat]
  simp only [String.append_assoc]

/-- A chain is written link by link. -/
theorem chained (h : IsChain root links n) (hroot : root.IsRoot words) (hn : n.IsBuilt) :
    ∃ ts, links.mapM (Link.text (textAt indent preferStruct checker false)) = .ok ts ∧
      Chained indent preferStruct checker n (words ++ ts) := by
  induction h with
  | root =>
    refine ⟨[], rfl, ?_, fun hne => ?_⟩
    · obtain ⟨t, -, -, hthis⟩ := hroot.source hn
      rw [hthis, List.append_nil]
    · cases hroot with
      | name hk hs hnot =>
        simp only [List.mem_cons, List.not_mem_nil, or_false, not_or] at hnot
        rw [textAt_identifier preferStruct hn.isUnspacedProgram hk hs]
        simp [hnot]
      | this hk => exact absurd rfl hne
  | @access links receiver m s hchain h ih =>
    obtain ⟨ts, hts, hreceiver⟩ := ih (hn.get h.receiver)
    obtain ⟨-, -, -, hthis⟩ := (hchain.access h).source hroot hn
    refine ⟨ts ++ [Text.upperFirst s], mapM_link hts rfl, ?_⟩
    rw [← List.append_assoc]
    exact chained_link (hthis (by simp))
      (textAt_link preferStruct hindent hchecker hn h hreceiver false)
  | @call links receiver callee m s vs hchain h hk he hvs ih =>
    have hbuilt := hn.get he
    obtain ⟨ts, hts, hreceiver⟩ := ih (hbuilt.get h.receiver)
    obtain ⟨t, ht, hconsole, -⟩ := hchain.source hroot (hbuilt.get h.receiver)
    obtain ⟨-, -, -, hthis⟩ := (hchain.call h hk he hvs).source hroot hn
    obtain ⟨us, hus, htext⟩ := textAt_linkCall preferStruct hindent hchecker hn hk he hvs h
      (Node.isPrintCall_access hbuilt h ht hconsole) hreceiver
    refine ⟨ts ++ [Text.upperFirst s ++ "(" ++ ", ".intercalate us ++ ")"], mapM_link hts ?_, ?_⟩
    · show (vs.mapM _ >>= _) = _
      rw [hus]
      rfl
    · rw [← List.append_assoc]
      exact chained_link (hthis (by simp)) htext

end

end CSharp

namespace Target

/-- A chain of at least one link is written link by link, with points in between: the root, if it
is a name other than `console`, `this` and `undefined`, as a local name, then each name capitalised,
and behind the name of a method that is called, in parentheses and with commas between them, the
texts that its arguments have on their own. If the root is `this`, the first link comes first. All
this holds of trees without recorded spans whose names, numbers and operators hold no white space,
with any expressions as arguments. -/
theorem text_chain {options : List (String × Data)} {checker : Checker} {root n : Node}
    {links : List Link} {words : List String} (hoptions : ∀ option ∈ options, IsOption option)
    (hchecker : checker.IsTabled)
    (hbuilt : n.toValue.all (fun m => m.isShaped .source && m.isUnspaced && m.hasNoSpan) = true)
    (hroot : root.IsRoot words) (hchain : root.IsChain links n) (hlinks : links ≠ []) :
    ∃ ts, links.mapM (Link.text (text options checker)) = .ok ts ∧
      text options checker n.toValue = .ok (".".intercalate (words ++ ts)) := by
  obtain ⟨o, ho, hindent⟩ := ofMembers_ok hoptions
  have htext : text options checker = CSharp.textAt o.indent o.preferStruct checker false :=
    funext (text_eq hoptions ho checker)
  rw [htext]
  obtain ⟨ts, hts, hchained⟩ :=
    CSharp.chained o.preferStruct hindent hchecker hchain hroot hbuilt
  refine ⟨ts, hts, hchained.text fun hnil => ?_⟩
  obtain rfl := (List.append_eq_nil_iff.1 hnil).2
  exact hlinks (CSharp.eq_nil_of_mapM hts)

/-- An access to a property of a node. -/
def property (receiver : Node) (s : String) : Node :=
  ⟨.propertyAccessExpression, .unknown, .text "", none,
    [receiver.toValue, .node .identifier .unknown (.text s) none [.text s]]⟩

/-- The arguments `id` and `-1`. -/
def criteria : List Value := [
  .node .identifier .unknown (.text "id") none [.text "id"],
  .bare .prefixUnaryExpression [
    .text "-", .node .numericLiteral .unknown (.text "1") none [.text "1"]]]

/-- The chain `this.orders.find(id, -1).total`. -/
def inquiry : Node :=
  let orders := property ⟨.thisKeyword, .unknown, .text "", none, []⟩ "orders"
  property ⟨.callExpression, .unknown, .text "", none,
    [(property orders "find").toValue, .list criteria]⟩ "total"

/-- The inquiry is written link by link, with its names capitalised and its arguments in
parentheses. -/
theorem text_chain_inquiry :
    (∃ ts, [⟨"orders", none⟩, ⟨"find", some criteria⟩, ⟨"total", none⟩].mapM
        (Link.text (text [] .recorded)) = .ok ts ∧
      text [] .recorded inquiry.toValue = .ok (".".intercalate ([] ++ ts))) ∧
    text [] .recorded inquiry.toValue = .ok "Orders.Find(id, -1).Total" := by
  let orders := property ⟨.thisKeyword, .unknown, .text "", none, []⟩ "orders"
  have hfind : (property orders "find").IsAccess orders "find" := ⟨rfl, rfl, rfl⟩
  have hchain : Node.IsChain ⟨.thisKeyword, .unknown, .text "", none, []⟩
      [⟨"orders", none⟩, ⟨"find", some criteria⟩, ⟨"total", none⟩] inquiry :=
    ((Node.IsChain.root.access ⟨rfl, rfl, rfl⟩).call hfind rfl rfl rfl).access ⟨rfl, rfl, rfl⟩
  refine ⟨?_, by decide +kernel⟩
  exact text_chain (by simp) (Or.inl rfl) (by decide) (.this rfl) hchain (by simp)

end Target

end CodeSample

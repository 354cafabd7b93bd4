import CodeSample.Proofs.TidyTrees

/-!
# C# output is indented by its braces

The C# text of a tidy program is balanced, and every line of it starts with as many blanks as the
open braces ask for. The proof follows the rules: what is written for an expression is a phrase, and
what is written for a statement or a member keeps the invariant of the layout, whatever the parts
are that the node is made of.

* `Kind.form` says what is written for the nodes of a kind: a phrase, one that may stand at the
  start of a line, or lines; `Form.Admits` are the fragments of each form;
* `Ordinary` are the contexts in which all nodes take their form, and `Writes` says what is written
  in any context;
* `admits_…` is the statement for each rule, `writes_convert` joins them;
* `braced_rendering` is the statement for whole programs.
-/

namespace CodeSample

open Layout (Fragment Indent)
open Text (Consists Leads isQuiet isPhrase_of_consists isTerm_of_isTidy)

/-! ### Forms -/

/-- What is written for a node. -/
inductive Form where
  /-- A phrase that may stand at the start of a line. -/
  | term
  /-- A phrase. -/
  | phrase
  /-- Lines that keep the layout undisturbed. -/
  | lines
deriving DecidableEq

/-- What is written for the nodes of a kind. -/
def Kind.form (kind : Kind) : Form :=
  if (Kind.expressionWithTypeArguments :: Kind.expressions).contains kind then .term
  else if (Kind.parameter :: Kind.assignments).contains kind then .phrase
  else .lines

/-- What may be written for a node with a form, where each brace takes `k` blanks. -/
def Form.Admits (k : Nat) : Form → Fragment → Prop
  | term, f => f.IsTerm
  | phrase, f => f.IsPhrase
  | lines, f => f.Keeps k

namespace CSharp

open Layout.Fragment (row line block separated flats IsPhrase IsTerm Keeps KeepsAll isPhrase_text
  isPhrase_row isPhrase_separated isPhrase_between isPhrase_enclosed isTerm_row
  isTerm_row_singleton isTerm_row_append leads_flats leads_tree keepsAll_nil keepsAll_cons
  keepsAll_of_phrases keeps_tree keeps_braces keeps_block)

/-- The name of the class around is null or tidy. -/
def HasTidyClass (c : Flags) : Prop := c.className = .null ∨ c.className.IsWord Text.IsTerm

/-- A context in which all nodes take their form. Where string literals stand for identifiers, they
may be empty. -/
structure Ordinary (c : Flags) : Prop where
  className : HasTidyClass c
  asIdentifier : c.stringAsIdentifier.truthy = false

/-- A node may be met in a context. -/
structure Meets (c : Flags) (n : Node) : Prop where
  tidy : n.IsTidyProgram
  kind : n.kind ∉ Kind.inner
  className : HasTidyClass c
  asIdentifier : c.stringAsIdentifier.truthy = true → n.kind ∈ [.identifier, .stringLiteral]

/-- What is written for a node in a context. -/
def Writes (k : Nat) (c : Flags) (n : Node) (f : Fragment) : Prop :=
  f.IsPhrase ∧ c.stringAsIdentifier.truthy = true ∨ n.kind.form.Admits k f

/-- All less deep nodes are written as they should be. -/
def RendersTidy (k : Nat) (convertIn : Flags → Value → Run Fragment) (n : Node) : Prop :=
  Renders convertIn Meets (Writes k) n

variable {k : Nat} {view : View Flags} {n : Node}

/-- In an ordinary context every tidy node that is rendered by itself may be met. -/
theorem Ordinary.meets {c : Flags} (hc : Ordinary c) (hn : n.IsTidyProgram)
    (hk : n.kind ∉ Kind.inner) : Meets c n :=
  ⟨hn, hk, hc.className, fun htruthy => by rw [hc.asIdentifier] at htruthy; cases htruthy⟩

/-- In an ordinary context a node is written in its form. -/
theorem Writes.admits {c : Flags} {f : Fragment} (h : Writes k c n f) (hc : Ordinary c) :
    n.kind.form.Admits k f := by
  rcases h with ⟨-, htruthy⟩ | h
  · rw [hc.asIdentifier] at htruthy
    cases htruthy
  · exact h

/-- What passes both checks is shaped. -/
theorem isShaped_of_check (m : Node) (h : (m.isShaped .source && m.isTidy) = true) :
    m.isShaped .source = true := by
  rw [Bool.and_eq_true] at h
  exact h.1

namespace RendersTidy

variable {convertIn : Flags → Value → Run Fragment} {c : Flags} {checker : Checker}
  {field : Field} {kinds : List Kind}
variable (h : RendersTidy k convertIn n) (hn : n.IsTidyProgram) (hc : Ordinary c)
include h hn hc

/-- The node in a field is written in a form if all kinds that may stand there are. -/
theorem one (hf : Grammar.source.content? n.kind field = some (.one kinds)) (r : Form)
    (hkinds : ∀ kind ∈ kinds, kind.form = r ∧ kind ∉ Kind.inner) :
    (convertIn c (n.get field)).Gives (r.Admits k) :=
  Renders.one h isShaped_of_check hn hf (fun _ hm hk => hc.meets hm (hkinds _ hk).2)
    fun _ hk _ hx => (hkinds _ hk).1 ▸ hx.admits hc

/-- The node in a field that may be null is written in a form if all kinds that may stand there are.
-/
theorem maybe (hf : Grammar.source.content? n.kind field = some (.maybe kinds)) (r : Form)
    (hkinds : ∀ kind ∈ kinds, kind.form = r ∧ kind ∉ Kind.inner) :
    n.get field = .null ∨ (convertIn c (n.get field)).Gives (r.Admits k) :=
  Renders.maybe h isShaped_of_check hn hf (fun _ hm hk => hc.meets hm (hkinds _ hk).2)
    fun _ hk _ hx => (hkinds _ hk).1 ▸ hx.admits hc

/-- The nodes that a field enumerates are written in a form if all kinds that may stand there are.
-/
theorem all (hf : Grammar.source.content? n.kind field = some (.many kinds)) (r : Form)
    (hkinds : ∀ kind ∈ kinds, kind.form = r ∧ kind ∉ Kind.inner) :
    ((View.mk c checker convertIn).convertAll (n.get field)).Gives fun xs =>
      ∀ x ∈ xs, r.Admits k x :=
  Renders.all h isShaped_of_check hn hf (fun _ hm hk => hc.meets hm (hkinds _ hk).2)
    fun _ hk _ hx => (hkinds _ hk).1 ▸ hx.admits hc

end RendersTidy

/-! ### Fragments that many rules make -/

/-- Phrases with commas between them. -/
theorem isPhrase_commas {xs : List Fragment} (h : ∀ x ∈ xs, x.IsPhrase) :
    (separated ", " xs).IsPhrase :=
  isPhrase_separated (by decide) (by decide) h

/-- A literal in braces. -/
theorem isTerm_initializerList {indent : Indent} {s : String} (hs : Text.IsTerm s)
    {xs : List Fragment} (hxs : ∀ x ∈ xs, x.IsPhrase) :
    (initializerList indent [.text s] xs).IsTerm := by
  have hleads (t : String) : Leads (flats ([.text s] ++ [.text t])) := leads_flats hs.isTerm.leads _
  have hs' : ∀ f ∈ [Fragment.text s], f.IsPhrase := by
    rw [List.forall_mem_singleton]
    exact hs.isTerm.toIsPhrase
  unfold initializerList
  split
  · refine isTerm_row (List.forall_mem_append.2 ⟨hs', ?_⟩) (hleads _) false
    rw [List.forall_mem_singleton]
    exact isPhrase_text (by decide) (by decide)
  · exact ⟨isPhrase_enclosed indent hs' hxs (by decide) (by decide) (by decide) (by decide)
      (by decide), leads_tree (hleads _) _ _⟩

/-- A head and a block, if there is one. -/
theorem keeps_withBody {indent : Indent} {head : List Fragment} {body : Value} {y : Fragment}
    (hhead : KeepsAll k head) (hbody : (body.isNull || body.isKind .block) = true)
    (hy : y.Keeps k) :
    (withBody indent head body y).Keeps k := by
  refine keeps_tree hhead ?_ (Or.inl rfl) ?_ rfl
  · intro f hf
    obtain rfl := List.mem_singleton.1 hf
    exact hy
  · unfold bodyIndent
    rw [if_pos hbody]
    rfl

section

variable (h : RendersTidy k view.convertIn n) (hn : n.IsTidyProgram) (hc : Ordinary view.context)
include h hn hc

/-- The name of a member, in the place of a member. -/
theorem gives_memberName
    (hname : Grammar.source.content? n.kind .name = some (.one [.identifier])) :
    ((asMember view).convert (n.get .name)).Gives IsTerm :=
  h.one (c := (asMember view).context) hn ⟨hc.className, hc.asIdentifier⟩ hname .term (by decide)

/-! ### Functions -/

/-- The signature of a function, a method or a constructor, with its body or without. -/
theorem admits_signature {head : List Fragment} (hhead : ∀ f ∈ head, f.IsPhrase)
    (hleads : Leads (flats head))
    (hparameters : Grammar.source.content? n.kind .parameters = some (.many [.parameter]))
    (hbody : Grammar.source.content? n.kind .body = some (.maybe [.block])) :
    (signature view n head).Gives (Keeps k) := by
  have hparts {xs : List Fragment} (hxs : ∀ x ∈ xs, x.IsPhrase) (t : String)
      (ht : Consists isQuiet t) :
      ∀ f ∈ head ++ [.text "(", separated ", " xs, .text t], f.IsPhrase := by
    refine List.forall_mem_append.2 ⟨hhead, ?_⟩
    simp (disch := decide) [isPhrase_of_consists, isPhrase_commas hxs, isPhrase_of_consists ht]
  have hfront (fs : List Fragment) : Leads (flats (head ++ fs)) := by
    rw [Layout.Fragment.flats_append]
    exact hleads.append _
  refine (gives_signature view (h.all hn hc hparameters .phrase (by decide))
    (h.maybe hn hc hbody .lines (by decide))).mono ?_
  rintro _ ⟨xs, hxs, rfl | ⟨y, hy, rfl⟩⟩
  · exact (isTerm_row (hparts hxs ");" (by decide)) (hfront _) true).keeps
  · refine keeps_tree (keepsAll_of_phrases (hparts hxs ") " (by decide)) (hfront _)) ?_
      (Or.inl rfl) rfl rfl
    intro f hf
    obtain rfl := List.mem_singleton.1 hf
    exact hy

/-- A constructor is written on lines, by the name of the class around or a placeholder. -/
theorem admits_constructor (hk : n.kind = .constructor) :
    (constructor view n).Gives (Keeps k) := by
  have hplaceholder : Text.IsTerm placeholderClass := isTerm_of_isTidy (by decide)
  refine gives_constructor view hplaceholder hc.className fun w hw => ?_
  refine admits_signature h hn hc ?_ ?_ (by rw [hk]; rfl) (by rw [hk]; rfl)
  · simp (disch := decide) [isPhrase_of_consists, hw.isTerm.toIsPhrase]
  · exact leads_flats (f := .text "public ") (by decide) _

/-! ### Expressions -/

/-- A call is a term: the callee is, and the arguments are in parentheses. -/
theorem admits_callExpression (hk : n.kind = .callExpression) :
    (Dispatch.call printCall regularCall view n).Gives IsTerm := by
  have hsource :=
    exists_text_of_one (Node.IsTidyProgram.isProgram hn) (f := .expression) (by rw [hk]; rfl)
  obtain ⟨vs, hvs, -⟩ := Node.many_of_all isShaped_of_check hn (f := .arguments) (by rw [hk]; rfl)
  have harguments : (view.convertAll (n.get .arguments)).Gives fun xs => ∀ x ∈ xs, x.IsTerm :=
    h.all hn hc (by rw [hk]; rfl) .term (by decide)
  have hcallee : ((asMember view).convert (n.get .expression)).Gives IsTerm :=
    h.one (c := (asMember view).context) hn ⟨hc.className, hc.asIdentifier⟩ (by rw [hk]; rfl) .term
      (by decide)
  refine Dispatch.gives_call view hsource ?_ ?_
  · refine (gives_printCall view hvs harguments).mono ?_
    intro r hr
    obtain ⟨xs, hxs, hr⟩ := hr
    have hphrases : ∀ x ∈ xs, x.IsPhrase := fun x hx => (hxs x hx).toIsPhrase
    have hlead (fs : List Fragment) : Leads (flats (.text "Console.WriteLine(" :: fs)) :=
      leads_flats (f := .text "Console.WriteLine(") (by decide) fs
    rcases hr with rfl | rfl
    · have hfront : ∀ f ∈ [Fragment.text "Console.WriteLine("] ++ xs, f.IsPhrase := by
        refine List.forall_mem_append.2 ⟨?_, hphrases⟩
        exact List.forall_mem_singleton.2 (isPhrase_of_consists (by decide))
      refine isTerm_row_append hfront ?_ (hlead xs) false
      exact List.forall_mem_singleton.2 (isPhrase_of_consists (by decide))
    · refine isTerm_row ?_ (hlead _) false
      have hholes : ∀ x ∈ xs.map fun x => row [.text "\x7b", x, .text "\x7d"], x.IsPhrase := by
        intro y hy
        obtain ⟨x, hx, rfl⟩ := List.mem_map.1 hy
        exact isPhrase_between (by decide) (by decide) (by decide)
          (List.forall_mem_singleton.2 (hphrases x hx)) false
      have hseparated : (separated " "
          (xs.map fun x => row [.text "\x7b", x, .text "\x7d"])).IsPhrase :=
        isPhrase_separated (by decide) (by decide) hholes
      simp (disch := decide) [isPhrase_of_consists, hseparated]
  · refine (gives_regularCall view hcallee harguments).mono ?_
    rintro _ ⟨x, ys, hx, hys, rfl⟩
    have hcommas := isPhrase_commas fun y hy => (hys y hy).toIsPhrase
    refine isTerm_row ?_ (leads_flats hx.leads _) false
    simp (disch := decide) [isPhrase_of_consists, hx.toIsPhrase, hcommas]

/-- A property access is a term: its receiver is, or its name if `this` is left out. -/
theorem admits_propertyAccess (hk : n.kind = .propertyAccessExpression) :
    (propertyAccess view n).Gives IsTerm := by
  have hsource :=
    exists_text_of_one (Node.IsTidyProgram.isProgram hn) (f := .expression) (by rw [hk]; rfl)
  have hreceiver : ((notMember view).convert (n.get .expression)).Gives IsTerm :=
    h.one (c := (notMember view).context) hn ⟨hc.className, hc.asIdentifier⟩ (by rw [hk]; rfl) .term
      (by decide)
  refine (gives_propertyAccess view hsource hreceiver
    (gives_memberName h hn hc (by rw [hk]; rfl))).mono ?_
  rintro _ ⟨y, hy, rfl | ⟨x, hx, rfl⟩⟩
  · exact isTerm_row_singleton hy false
  · refine isTerm_row ?_ (leads_flats hx.leads _) false
    simp (disch := decide) [isPhrase_of_consists, hx.toIsPhrase, hy.toIsPhrase]

/-- An array literal is a term, which opens with a word and closes the brace that it opens. -/
theorem admits_arrayLiteral {indent : Indent} (hk : n.kind = .arrayLiteralExpression) :
    (arrayLiteral indent view n).Gives IsTerm := by
  refine (gives_arrayLiteral view (h.all hn hc (by rw [hk]; rfl) .term (by decide))).mono ?_
  rintro _ ⟨xs, hxs, rfl⟩
  exact isTerm_initializerList ⟨by decide, by decide⟩ fun x hx => (hxs x hx).toIsPhrase

/-- A pair of a dictionary or an assignment to a property, of a key and a value in two fields. -/
theorem admits_assignment {key value : Field} {keys values : List Kind}
    (hkey : Grammar.source.content? n.kind key = some (.one keys))
    (hvalue : Grammar.source.content? n.kind value = some (.one values))
    (hkeys : ∀ kind ∈ keys, kind ∈ [.identifier, .stringLiteral])
    (hvalues : ∀ kind ∈ values, kind.form = .term ∧ kind ∉ Kind.inner) :
    (assignment view (n.get key) (n.get value)).Gives IsPhrase := by
  have key {c : Flags} (hclass : HasTidyClass c) :
      (view.convertIn c (n.get key)).Gives IsPhrase := by
    refine Renders.one h isShaped_of_check hn hkey (fun m hm hk => ?_) fun m hk x hx => ?_
    · have hkind := hkeys _ hk
      refine ⟨hm, ?_, hclass, fun _ => hkind⟩
      revert hkind
      cases m.kind <;> decide
    · rcases hx with ⟨hx, -⟩ | hx
      · exact hx
      · have hform : m.kind.form = .term := by
          have hkind := hkeys _ hk
          revert hkind
          cases m.kind <;> decide
        rw [hform] at hx
        exact hx.toIsPhrase
  have value {c : Flags} (hc : Ordinary c) : (view.convertIn c (n.get value)).Gives IsTerm :=
    h.one hn hc hvalue .term hvalues
  have hordinary : Ordinary (asPairValue view).context := ⟨hc.className, hc.asIdentifier⟩
  refine (gives_assignment view (fun _ => ⟨key hc.className, value hordinary⟩)
    fun _ => ⟨key hc.className, value hc⟩).mono ?_
  rintro _ ⟨x, y, hx, hy, rfl | rfl⟩
  · have hparts : ∀ f ∈ [x, .text ", ", y], f.IsPhrase := by
      simp (disch := decide) [isPhrase_of_consists, hx, hy.toIsPhrase]
    exact isPhrase_between (by decide) (by decide) (by decide) hparts true
  · refine isPhrase_row ?_ true
    simp (disch := decide) [isPhrase_of_consists, hx, hy.toIsPhrase]

/-! ### Statements -/

/-- A block keeps the layout: its statements are lines, and stand between its braces. -/
theorem admits_blockStatement (hk : n.kind = .block) :
    (blockStatement (.blanks k) view n).Gives (Keeps k) := by
  refine (gives_blockStatement view (h.all hn hc (by rw [hk]; rfl) .lines (by decide))).mono ?_
  rintro _ ⟨xs, hxs, rfl⟩
  exact keeps_block hxs rfl rfl rfl

/-- An expression statement is a line: its expression is a term. -/
theorem admits_expressionStatement (hk : n.kind = .expressionStatement) :
    (expressionStatement view n).Gives (Keeps k) := by
  refine (gives_expressionStatement view (h.one hn hc (by rw [hk]; rfl) .term (by decide))).mono ?_
  rintro _ ⟨x, hx, rfl⟩
  refine (isTerm_row ?_ (leads_flats hx.leads _) true).keeps
  simp (disch := decide) [isPhrase_of_consists, hx.toIsPhrase]

/-- A conditional keeps the layout, with its branches on lines of their own and with an alternative
on the line of the `else`. -/
theorem admits_ifStatement (hk : n.kind = .ifStatement) :
    (ifStatement (.blanks k) view n).Gives (Keeps k) := by
  have hblocks := (Node.isTidy_iff.1 hn.isTidy).2.2.2
  unfold Node.hasBlocks at hblocks
  rw [hk, Bool.and_eq_true] at hblocks
  obtain ⟨hthen, helse⟩ := hblocks
  refine (gives_ifStatement view (h.one hn hc (by rw [hk]; rfl) .term (by decide))
    (h.one hn hc (by rw [hk]; rfl) .lines (by decide))
    (h.maybe hn hc (by rw [hk]; rfl) .lines (by decide))).mono ?_
  intro r hr
  obtain ⟨x, y, hx, hy, hr⟩ := hr
  dsimp only at hr
  have hconsequence : (withBody (.blanks k) [.text "if (", x, .text ") "]
      (n.get .thenStatement) y).Keeps k := by
    refine keeps_withBody (keepsAll_of_phrases ?_ ?_) (by rw [hthen, Bool.or_true]) hy
    · simp (disch := decide) [isPhrase_of_consists, hx.toIsPhrase]
    · exact leads_flats (f := .text "if (") (by decide) _
  have hword : (Fragment.text "else ").Keeps k := (Text.IsTerm.isTerm ⟨by decide, by decide⟩).keeps
  rcases hr with ⟨-, rfl⟩ | ⟨z, hz, alternative, halternative, rfl⟩
  · exact hconsequence
  -- the alternative stands on a line of its own, and a conditional in it on the same line
  have hkeeps : alternative.Keeps k := by
    rcases halternative with ⟨-, rfl⟩ | ⟨hother, rfl⟩
    · exact keeps_tree (keepsAll_cons hword (keepsAll_cons hz keepsAll_nil)) (by simp) (Or.inl rfl)
        rfl rfl
    · refine keeps_withBody (keepsAll_cons hword keepsAll_nil) ?_ hz
      rw [Bool.or_eq_true] at helse ⊢
      rcases helse with hnull | hone
      · exact Or.inl hnull
      · right
        obtain ⟨m, hm, hkind⟩ := Value.exists_of_isOneOf hone
        rw [hm] at hother ⊢
        rw [List.mem_cons, List.mem_singleton] at hkind
        rcases hkind with hkind | hkind
        · simp [Value.isKind, Value.kind?, hkind] at hother
        · simp [Value.isKind, Value.kind?, hkind]
  refine keeps_tree keepsAll_nil ?_ (Or.inr rfl) rfl rfl
  simpa using ⟨hconsequence, hkeeps⟩

/-- A loop keeps the layout, with its body on lines of its own. -/
theorem admits_forOfStatement (hk : n.kind = .forOfStatement) :
    (forOfStatement (.blanks k) view n).Gives (Keeps k) := by
  have hblocks := (Node.isTidy_iff.1 hn.isTidy).2.2.2
  unfold Node.hasBlocks at hblocks
  rw [hk] at hblocks
  change (n.get .statement).isKind .block = true at hblocks
  obtain ⟨m, hm, hmall, -⟩ :=
    Node.one_of_all isShaped_of_check hn (f := .initializer) (by rw [hk]; rfl)
  have hvariable : (loopVariable (n.get .initializer)).Gives (Value.IsWord Text.IsTerm) := by
    rw [hm]
    refine gives_loopVariable (isTerm_of_isTidy (by decide)) fun hlist => ?_
    refine declarations_of_all isShaped_of_check hmall hlist fun name hname hkind => ?_
    obtain ⟨s, hs, htidy⟩ := Node.IsTidyProgram.tidy_source hname (by rw [hkind]; decide)
    exact ⟨s, hs, isTerm_of_isTidy htidy⟩
  refine (gives_forOfStatement view hvariable (h.one hn hc (by rw [hk]; rfl) .term (by decide))
    (h.one hn hc (by rw [hk]; rfl) .lines (by decide))).mono ?_
  rintro _ ⟨s, x, y, hs, hx, hy, rfl⟩
  refine keeps_withBody (keepsAll_of_phrases ?_ ?_) (by rw [hblocks, Bool.or_true]) hy
  · simp (disch := decide) [isPhrase_of_consists, hs.isTerm.toIsPhrase, hx.toIsPhrase]
  · exact leads_flats (f := .text "foreach (var ") (by decide) _

/-! ### Types and members -/

/-- A class or an interface, with its members in a context of their own. -/
theorem admits_declaration {word : String} (hword : Text.IsTerm word) {inside : Flags}
    (hinside : Ordinary inside) {kinds : List Kind}
    (hname : Grammar.source.content? n.kind .name = some (.one [.identifier]))
    (hheritage : Grammar.source.content? n.kind .heritageClauses = some (.many [.heritageClause]))
    (hmembers : Grammar.source.content? n.kind .members = some (.many kinds))
    (hkinds : ∀ kind ∈ kinds, kind.form = .lines ∧ kind ∉ Kind.inner) :
    (declaration (.blanks k) word view (view.withContext inside) n).Gives (Keeps k) := by
  have hform : ∀ kind ∈ Kind.expressions, kind.form = .term := by decide
  have extended : (heritage view n).Gives fun front => front = [] ∨
      ∃ xs : List Fragment, (∀ x ∈ xs, x.IsTerm) ∧ front = [.text " : ", separated ", " xs] :=
    heritage_of_all h isShaped_of_check hn hheritage
      (fun m hm hk => hc.meets hm (expression_not_inner hk))
      fun m hk x hx => by
        have hadmits := hx.admits hc
        rwa [hform _ hk] at hadmits
  refine (gives_declaration view (h.one hn hc hname .term (by decide)) extended
    (h.all hn hinside hmembers .lines hkinds)).mono ?_
  rintro _ ⟨x, front, ys, hx, hfront, hys, rfl⟩
  refine keeps_braces (keepsAll_of_phrases ?_ ?_) hys rfl rfl rfl
  · have hpair : ∀ f ∈ [Fragment.text word, x], f.IsPhrase := by
      simpa using ⟨hword.isTerm.toIsPhrase, hx.toIsPhrase⟩
    refine List.forall_mem_append.2 ⟨hpair, ?_⟩
    rcases hfront with rfl | ⟨xs, hxs, rfl⟩
    · simp
    · have hcommas := isPhrase_commas fun x hx => (hxs x hx).toIsPhrase
      simp (disch := decide) [isPhrase_of_consists, hcommas]
  · exact leads_flats hword.isTerm.leads _

/-- A class keeps the layout: its members are lines, in a context that knows a tidy name. -/
theorem admits_classDeclaration (hk : n.kind = .classDeclaration) :
    (classDeclaration (.blanks k) view n).Gives (Keeps k) := by
  obtain ⟨name, hname, hnall, hnk⟩ :=
    Node.one_of_all isShaped_of_check hn (f := .name) (by rw [hk]; rfl)
  have hnk : name.kind = .identifier := List.mem_singleton.1 hnk
  obtain ⟨s, hs, htidy⟩ := Node.IsTidyProgram.tidy_source hnall (by rw [hnk]; decide)
  unfold classDeclaration
  refine Run.gives_bind_ofExcept (hname ▸ hs) ?_
  exact admits_declaration h hn hc ⟨by decide, by decide⟩
    ⟨Or.inr ⟨s, rfl, isTerm_of_isTidy htidy⟩, hc.asIdentifier⟩ (by rw [hk]; rfl) (by rw [hk]; rfl)
    (by rw [hk]; rfl) (by decide)

/-- An interface keeps the layout, be it rendered as a class or as an interface. -/
theorem admits_interfaceDeclaration (hk : n.kind = .interfaceDeclaration) :
    (Dispatch.interface (dataInterface (.blanks k)) (behaviourInterface (.blanks k)) view n).Gives
      (Keeps k) := by
  obtain ⟨vs, hvs, -⟩ := Node.many_of_all isShaped_of_check hn (f := .members) (by rw [hk]; rfl)
  have declared {word : String} (hword : Text.IsTerm word) (data : Bool) :
      (declaration (.blanks k) word view (inInterface view data) n).Gives (Keeps k) :=
    admits_declaration h hn hc hword ⟨hc.className, hc.asIdentifier⟩ (by rw [hk]; rfl)
      (by rw [hk]; rfl) (by rw [hk]; rfl) (by decide)
  exact Dispatch.gives_interface view hvs (declared ⟨by decide, by decide⟩ true)
    (declared ⟨by decide, by decide⟩ false)

/-! ### Rules that write types -/

section

variable (hchecker : view.checker.IsTidy)
include hchecker

omit h hc in
/-- The checker knows the type of an annotation in a field, if there is an annotation. -/
theorem knowsIfAny {f : Field} {kinds : List Kind}
    (hf : Grammar.source.content? n.kind f = some (.maybe kinds)) :
    view.checker.KnowsIfAny Text.IsTerm (n.get f) :=
  knowsIfAny_of_maybe isShaped_of_check (fun _ hm => hchecker.knows hm) hn hf

/-- A function keeps the layout: its head is a line, and its body a block. -/
theorem admits_function
    (hname : Grammar.source.content? n.kind .name = some (.one [.identifier]))
    (hparameters : Grammar.source.content? n.kind .parameters = some (.many [.parameter]))
    (htype : Grammar.source.content? n.kind .type = some (.maybe [.typeNode]))
    (hbody : Grammar.source.content? n.kind .body = some (.maybe [.block])) :
    (function view n).Gives (Keeps k) := by
  refine gives_function view typeWords_isTerm (knowsIfAny hn hchecker htype)
    (gives_memberName h hn hc hname) fun x w hx hw => ?_
  refine admits_signature h hn hc ?_ ?_ hparameters hbody
  · simp (disch := decide) [isPhrase_of_consists, hw.isTerm.toIsPhrase, hx.toIsPhrase]
  · exact leads_flats (f := .text "public ") (by decide) _

/-- A parameter is a phrase, with the spelling of its type in front. -/
theorem admits_parameter (hk : n.kind = .parameter) : (parameter view n).Gives IsPhrase := by
  refine (gives_parameter view typeWords_isTerm (knowsIfAny hn hchecker (by rw [hk]; rfl))
    (knowsIfAny hn hchecker (by rw [hk]; rfl)) (h.one hn hc (by rw [hk]; rfl) .term (by decide))
    (h.maybe hn hc (by rw [hk]; rfl) .term (by decide))).mono ?_
  rintro _ ⟨w, x, default, hw, hx, hdefault, rfl⟩
  refine isPhrase_row (List.forall_mem_append.2 ⟨?_, ?_⟩) false
  · simp (disch := decide) [isPhrase_of_consists, hw.isTerm.toIsPhrase, hx.toIsPhrase]
  · rcases hdefault with rfl | rfl | ⟨y, hy, rfl⟩
    · simp
    · simp (disch := decide) [isPhrase_of_consists]
    · simp (disch := decide) [isPhrase_of_consists, hy.toIsPhrase]

/-- A cast is a term, with the spelling of its type in parentheses. -/
theorem admits_asExpression (hk : n.kind = .asExpression) :
    (asExpression view n).Gives IsTerm := by
  refine (gives_asExpression view typeWords_isTerm
    (knowsIfAny_of_one isShaped_of_check (fun _ hm => hchecker.knows hm) hn (by rw [hk]; rfl))
    (h.one hn hc (by rw [hk]; rfl) .term (by decide))).mono ?_
  rintro _ ⟨w, x, hw, hx, rfl⟩
  refine isTerm_row ?_ (leads_flats (f := .text "(") (by decide) _) false
  simp (disch := decide) [isPhrase_of_consists, hw.isTerm.toIsPhrase, hx.toIsPhrase]

/-- An object literal is a term, whatever it makes. -/
theorem admits_objectLiteral {indent : Indent} (hk : n.kind = .objectLiteralExpression) :
    (Dispatch.objectLiteral (structLiteral indent) (keyedLiteral indent) (untypedLiteral indent)
      view n).Gives IsTerm := by
  obtain ⟨t?, ht, hnamed⟩ := (hchecker.knows hn).expression
  have concrete : ∀ t ∈ t?.bind Ty.concrete?, t.Named Text.IsTerm := by
    intro t htc
    obtain ⟨u, hu, hut⟩ := Option.bind_eq_some_iff.1 htc
    exact (hnamed u hu).concrete hut
  have element : ∀ t : Ty, t.Named Text.IsTerm → ∀ e ∈ t.element?, e.Named Text.IsTerm := by
    intro t hnamed e he
    cases t <;> simp only [Ty.element?, Option.mem_def, reduceCtorEq, Option.some.injEq] at he
    subst he
    exact hnamed.map
  have parts {c : Flags} (hc : Ordinary c) :
      ((view.withContext c).convertAll (n.get .properties)).Gives
        fun xs => ∀ x ∈ xs, x.IsPhrase :=
    h.all hn hc (by rw [hk]; rfl) .phrase (by decide)
  have hpairs : Ordinary (amongPairs view).context := ⟨hc.className, hc.asIdentifier⟩
  have hnew : Text.IsTerm "new " := ⟨by decide, by decide⟩
  have made {s : String} (hs : IsMade Text.IsTerm s) : Text.IsTerm s := by
    obtain ⟨w, hw, rfl | rfl⟩ := hs
    · exact hnew.append hw.1
    · have hdictionary : Text.IsTerm "new Dictionary<string, " := ⟨by decide, by decide⟩
      exact (hdictionary.append hw.1).append (by decide)
  refine Dispatch.gives_objectLiteral view ht (fun t htc => ?_) (fun t htc => ?_) ?_
  · refine (gives_structLiteral view typeWords_isTerm (concrete t htc) (parts hc)).mono ?_
    rintro _ ⟨s, xs, hs, hxs, rfl⟩
    exact isTerm_initializerList (made hs) hxs
  · refine (gives_keyedLiteral view typeWords_isTerm (element t (concrete t htc))
      (parts hpairs)).mono ?_
    rintro _ ⟨s, xs, hs, hxs, rfl⟩
    exact isTerm_initializerList (made hs) hxs
  · refine (gives_untypedLiteral view typeWords_isTerm (parts hc) (parts hpairs)).mono ?_
    rintro _ ⟨s, xs, hs | rfl, hxs, rfl⟩
    · exact isTerm_initializerList (made hs) hxs
    · exact isTerm_initializerList (hnew.append (by decide)) hxs

/-- A declaration of a variable is a line: the spelling of its type is a term. -/
theorem admits_variableDeclaration (hk : n.kind = .variableDeclaration) :
    (variableDeclaration view n).Gives (Keeps k) := by
  have hvalue : n.get .initializer = .null ∨
      ((asInitializer view).convert (n.get .initializer)).Gives IsTerm :=
    h.maybe (c := (asInitializer view).context) hn ⟨hc.className, hc.asIdentifier⟩
      (by rw [hk]; rfl) .term (by decide)
  refine (gives_variableDeclaration view typeWords_isTerm
    (knowsIfAny hn hchecker (by rw [hk]; rfl)) (knowsIfAny hn hchecker (by rw [hk]; rfl))
    (h.one hn hc (by rw [hk]; rfl) .term (by decide)) hvalue).mono ?_
  rintro _ ⟨w, x, hw, hx, rfl | ⟨y, hy, rfl⟩⟩
  · refine (isTerm_row ?_ (leads_flats hw.isTerm.leads _) true).keeps
    simp (disch := decide) [isPhrase_of_consists, hw.isTerm.toIsPhrase, hx.toIsPhrase]
  · refine (isTerm_row ?_ (leads_flats hw.isTerm.leads _) true).keeps
    simp (disch := decide) [isPhrase_of_consists, hw.isTerm.toIsPhrase, hx.toIsPhrase,
      hy.toIsPhrase]

/-- A property of an interface is a line that closes the braces of its accessors. -/
theorem admits_propertySignature (hk : n.kind = .propertySignature) :
    (propertySignature view n).Gives (Keeps k) := by
  refine (gives_propertySignature view typeWords_isTerm
    (knowsIfAny hn hchecker (by rw [hk]; rfl)) (gives_memberName h hn hc (by rw [hk]; rfl))).mono ?_
  rintro _ ⟨w, x, hw, hx, rfl | rfl⟩
  · refine (isTerm_row ?_ (leads_flats (f := .text "public ") (by decide) _) true).keeps
    simp (disch := decide) [isPhrase_of_consists, isPhrase_text, hw.isTerm.toIsPhrase,
      hx.toIsPhrase]
  · refine (isTerm_row ?_ (leads_flats hw.isTerm.leads _) true).keeps
    simp (disch := decide) [isPhrase_of_consists, isPhrase_text, hw.isTerm.toIsPhrase,
      hx.toIsPhrase]

/-- A method of an interface is a line. -/
theorem admits_methodSignature (hk : n.kind = .methodSignature) :
    (methodSignature view n).Gives (Keeps k) := by
  refine (gives_methodSignature view typeWords_isTerm (knowsIfAny hn hchecker (by rw [hk]; rfl))
    (gives_memberName h hn hc (by rw [hk]; rfl))
    (h.all hn hc (by rw [hk]; rfl) .phrase (by decide))).mono ?_
  rintro _ ⟨w, x, ys, hw, hx, hys, rfl⟩
  refine (isTerm_row ?_ (leads_flats hw.isTerm.leads _) true).keeps
  simp (disch := decide) [isPhrase_of_consists, hw.isTerm.toIsPhrase, hx.toIsPhrase,
    isPhrase_commas hys]

/-- A property of a class is a line that closes the braces of its accessors. -/
theorem admits_propertyDeclaration (hk : n.kind = .propertyDeclaration) :
    (propertyDeclaration view n).Gives (Keeps k) := by
  refine (gives_propertyDeclaration view typeWords_isTerm
    (knowsIfAny hn hchecker (by rw [hk]; rfl)) (knowsIfAny hn hchecker (by rw [hk]; rfl))
    (gives_memberName h hn hc (by rw [hk]; rfl))
    (h.maybe hn hc (by rw [hk]; rfl) .term (by decide))).mono ?_
  rintro _ ⟨w, x, value, hw, hx, hvalue, rfl⟩
  have hlead : Leads (flats [.text "public ", .text w, .text " ", x,
      .text " \x7b get; set; \x7d"]) := leads_flats (f := .text "public ") (by decide) _
  refine (isTerm_row_append ?_ ?_ hlead true).keeps
  · simp (disch := decide) [isPhrase_of_consists, isPhrase_text, hw.isTerm.toIsPhrase,
      hx.toIsPhrase]
  · rcases hvalue with rfl | ⟨y, hy, rfl⟩
    · simp
    · simp (disch := decide) [isPhrase_of_consists, hy.toIsPhrase]

end

/-! ### Rules that most languages share -/

/-- An expression in a field of the node. -/
theorem gives_expression {f : Field}
    (hf : Grammar.source.content? n.kind f = some (.one Kind.expressions)) :
    (view.convert (n.get f)).Gives IsTerm :=
  h.one hn hc hf .term (by decide)

/-- The statements, members or variables in a field of the node, one after the other. -/
theorem admits_blockOf {f : Field} {kinds : List Kind}
    (hf : Grammar.source.content? n.kind f = some (.many kinds))
    (hkinds : ∀ kind ∈ kinds, kind.form = .lines ∧ kind ∉ Kind.inner) :
    (Neutral.blockOf f view n).Gives (Keeps k) := by
  refine (Neutral.gives_blockOf view (h.all hn hc hf .lines hkinds)).mono ?_
  rintro _ ⟨xs, hxs, rfl⟩
  exact keeps_tree keepsAll_nil hxs (Or.inl rfl) rfl rfl

omit h hn hc in
/-- A tidy word is a term. -/
theorem admits_word {s : String} (hs : Text.isTidy s = true) :
    (Neutral.word s view n).Gives IsTerm := by
  refine (Neutral.gives_word view s).mono ?_
  rintro _ rfl
  exact isTerm_row_singleton (isTerm_of_isTidy hs).isTerm false

omit h hc in
/-- The source text of a number is a term in a tidy tree. -/
theorem admits_numericLiteral (hk : n.kind = .numericLiteral) :
    (Neutral.sourceOf view n).Gives IsTerm := by
  obtain ⟨s, hs, htidy⟩ := hn.tidy_source (by rw [hk]; decide)
  refine (Neutral.gives_sourceOf view hs).mono ?_
  rintro _ rfl
  exact isTerm_row_singleton (isTerm_of_isTidy htidy).isTerm false

/-- A return is a line, with an expression or without. -/
theorem admits_returnStatement (hk : n.kind = .returnStatement) :
    (Neutral.returnStatement view n).Gives (Keeps k) := by
  refine (Neutral.gives_returnStatement view
    (h.maybe hn hc (by rw [hk]; rfl) .term (by decide))).mono ?_
  rintro _ (rfl | ⟨x, hx, rfl⟩)
  · refine (isTerm_row ?_ (leads_flats (f := .text "return;") (by decide) _) true).keeps
    simp (disch := decide) [isPhrase_of_consists]
  · refine (isTerm_row ?_ (leads_flats (f := .text "return ") (by decide) _) true).keeps
    simp (disch := decide) [isPhrase_of_consists, hx.toIsPhrase]

/-- An expression in parentheses is a term. -/
theorem admits_parenthesized (hk : n.kind = .parenthesizedExpression) :
    (Neutral.parenthesized view n).Gives IsTerm := by
  refine (Neutral.gives_parenthesized view
    (gives_expression h hn hc (f := .expression) (by rw [hk]; rfl))).mono ?_
  rintro _ ⟨x, hx, rfl⟩
  refine isTerm_row ?_ (leads_flats (f := .text "(") (by decide) _) false
  simp (disch := decide) [isPhrase_of_consists, hx.toIsPhrase]

/-- A binary expression is a term: its left operand is, and its operator and its right operand are
phrases. -/
theorem admits_binary (hk : n.kind = .binaryExpression) :
    (Neutral.binary view n).Gives IsTerm := by
  obtain ⟨o, ho, htidy⟩ := Node.tidy_operator hn.isTidy (by rw [hk]; decide)
  have hstrict : (Fragment.text (Neutral.strict o)).IsPhrase := by
    unfold Neutral.strict
    split
    · exact isPhrase_of_consists (by decide)
    · split
      · exact isPhrase_of_consists (by decide)
      · exact (isTerm_of_isTidy htidy).isTerm.toIsPhrase
  refine (Neutral.gives_binary view ho
    (gives_expression h hn hc (f := .left) (by rw [hk]; rfl))
    (gives_expression h hn hc (f := .right) (by rw [hk]; rfl))).mono ?_
  rintro _ ⟨x, y, hx, hy, rfl⟩
  refine isTerm_row ?_ (leads_flats hx.leads _) false
  simp (disch := decide) [isPhrase_of_consists, hstrict, hx.toIsPhrase, hy.toIsPhrase]

/-- A prefix expression is a term: its operator is. -/
theorem admits_prefixUnary (hk : n.kind = .prefixUnaryExpression) :
    (Neutral.prefixUnary view n).Gives IsTerm := by
  obtain ⟨o, ho, htidy⟩ := Node.tidy_operator hn.isTidy (by rw [hk]; decide)
  have hoperator := (isTerm_of_isTidy htidy).isTerm
  refine (Neutral.gives_prefixUnary view ho
    (gives_expression h hn hc (f := .operand) (by rw [hk]; rfl))).mono ?_
  rintro _ ⟨x, hx, rfl⟩
  refine isTerm_row ?_ (leads_flats hoperator.leads _) false
  simpa using ⟨hoperator.toIsPhrase, hx.toIsPhrase⟩

/-- A conditional expression is a term: its condition is, and the alternatives are phrases. -/
theorem admits_conditional (hk : n.kind = .conditionalExpression) :
    (Neutral.conditional view n).Gives IsTerm := by
  refine (Neutral.gives_conditional view
    (gives_expression h hn hc (f := .condition) (by rw [hk]; rfl))
    (gives_expression h hn hc (f := .whenTrue) (by rw [hk]; rfl))
    (gives_expression h hn hc (f := .whenFalse) (by rw [hk]; rfl))).mono ?_
  rintro _ ⟨x, y, z, hx, hy, hz, rfl⟩
  refine isTerm_row ?_ (leads_flats hx.leads _) false
  simp (disch := decide) [isPhrase_of_consists, hx.toIsPhrase, hy.toIsPhrase, hz.toIsPhrase]

/-- An access to an element is a term: what is accessed is. -/
theorem admits_elementAccess (hk : n.kind = .elementAccessExpression) :
    (Neutral.elementAccess view n).Gives IsTerm := by
  refine (Neutral.gives_elementAccess view
    (gives_expression h hn hc (f := .expression) (by rw [hk]; rfl))
    (gives_expression h hn hc (f := .argument) (by rw [hk]; rfl))).mono ?_
  rintro _ ⟨x, y, hx, hy, rfl⟩
  refine isTerm_row ?_ (leads_flats hx.leads _) false
  simp (disch := decide) [isPhrase_of_consists, hx.toIsPhrase, hy.toIsPhrase]

/-- A construction of an object is a term, which opens with a word. -/
theorem admits_newExpression (hk : n.kind = .newExpression) :
    (Neutral.newExpression view n).Gives IsTerm := by
  refine (Neutral.gives_newExpression view
    (gives_expression h hn hc (f := .expression) (by rw [hk]; rfl))
    (h.all hn hc (by rw [hk]; rfl) .term (by decide))).mono ?_
  rintro _ ⟨x, ys, hx, hys, rfl⟩
  have hcommas := isPhrase_commas fun y hy => (hys y hy).toIsPhrase
  refine isTerm_row ?_ (leads_flats (f := .text "new ") (by decide) _) false
  simp (disch := decide) [isPhrase_of_consists, hx.toIsPhrase, hcommas]

/-- What is written for the constructs that most languages spell alike. -/
theorem admits_shared (hk : n.kind ∈ Neutral.shared) :
    ∃ rule : Rule Flags, Neutral.rule? name n.kind = some rule ∧
      (rule view n).Gives (n.kind.form.Admits k) := by
  cases hk' : n.kind
  case sourceFile | variableDeclarationList =>
    exact ⟨_, rfl, admits_blockOf h hn hc (by rw [hk']; rfl) (by decide)⟩
  case variableStatement => exact ⟨_, rfl, h.one hn hc (by rw [hk']; rfl) .lines (by decide)⟩
  case returnStatement => exact ⟨_, rfl, admits_returnStatement h hn hc hk'⟩
  case expressionWithTypeArguments =>
    exact ⟨_, rfl, gives_expression h hn hc (f := .expression) (by rw [hk']; rfl)⟩
  case numericLiteral => exact ⟨_, rfl, admits_numericLiteral hn hk'⟩
  case trueKeyword | falseKeyword | nullKeyword | thisKeyword =>
    exact ⟨_, rfl, admits_word (by decide)⟩
  case parenthesizedExpression => exact ⟨_, rfl, admits_parenthesized h hn hc hk'⟩
  case binaryExpression => exact ⟨_, rfl, admits_binary h hn hc hk'⟩
  case prefixUnaryExpression => exact ⟨_, rfl, admits_prefixUnary h hn hc hk'⟩
  case conditionalExpression => exact ⟨_, rfl, admits_conditional h hn hc hk'⟩
  case elementAccessExpression => exact ⟨_, rfl, admits_elementAccess h hn hc hk'⟩
  case newExpression => exact ⟨_, rfl, admits_newExpression h hn hc hk'⟩
  all_goals exact absurd (hk' ▸ hk) (by decide)

omit h hc in
/-- A quoted text is a term: its line breaks are escaped, and its braces are balanced in a tidy
tree. -/
theorem admits_quotedText (hk : n.kind = .noSubstitutionTemplateLiteral) :
    (quotedText view n).Gives IsTerm := by
  obtain ⟨s, hs, hquiet⟩ := Node.quiet_text hn.isTidy (f := .text) (by rw [hk]; rfl)
  refine (gives_quotedText view hs).mono ?_
  rintro _ rfl
  exact isTerm_row_singleton (Text.isTerm_quote hquiet).isTerm false

omit h hc in
/-- A template is a term, with its holes in braces that it closes. -/
theorem admits_templateExpression (hk : n.kind = .templateExpression) :
    (templateExpression view n).Gives IsTerm := by
  obtain ⟨head, hhead, hquiet⟩ := Node.quiet_text hn.isTidy (f := .head) (by rw [hk]; rfl)
  obtain ⟨vs, hvs, hall⟩ := spans_of_all (P := Consists isQuiet) (R := Consists isQuiet)
    isShaped_of_check hn hk (fun m hm hmk => Node.IsTidyProgram.quiet_source hm hmk)
    fun m hm hmk s hs => by
      rw [Bool.and_eq_true] at hm
      obtain ⟨t, ht, hquiet⟩ := Node.quiet_text hm.2 (f := .literal) (by rw [hmk]; rfl)
      rw [hs] at ht
      cases ht
      exact hquiet
  refine (gives_templateExpression view hhead hvs hall).mono ?_
  rintro _ ⟨spans, hspans, rfl⟩
  exact isTerm_row_singleton (isTerm_templateOf hquiet hspans) false

/-- What is written for a node in an ordinary context. -/
theorem admits_rule (hchecker : view.checker.IsTidy) (hinner : n.kind ∉ Kind.inner)
    (hnames : n.kind ∉ [.identifier, .stringLiteral]) :
    ∃ rule, rule? (.blanks k) n.kind = some rule ∧
      (rule view n).Gives (n.kind.form.Admits k) := by
  by_cases hshared : n.kind ∈ Neutral.shared
  · obtain ⟨rule, hrule, hgives⟩ := admits_shared h hn hc hshared
    refine ⟨rule, ?_, hgives⟩
    rw [← hrule]
    exact rule?_of_shared _ hshared
  cases hk : n.kind
  case noSubstitutionTemplateLiteral => exact ⟨_, rfl, admits_quotedText hn hk⟩
  case templateExpression => exact ⟨_, rfl, admits_templateExpression hn hk⟩
  case functionDeclaration | methodDeclaration =>
    exact ⟨_, rfl, admits_function h hn hc hchecker (by rw [hk]; rfl) (by rw [hk]; rfl)
      (by rw [hk]; rfl) (by rw [hk]; rfl)⟩
  case constructor => exact ⟨_, rfl, admits_constructor h hn hc hk⟩
  case parameter => exact ⟨_, rfl, admits_parameter h hn hc hchecker hk⟩
  case callExpression => exact ⟨_, rfl, admits_callExpression h hn hc hk⟩
  case propertyAccessExpression => exact ⟨_, rfl, admits_propertyAccess h hn hc hk⟩
  case asExpression => exact ⟨_, rfl, admits_asExpression h hn hc hchecker hk⟩
  case arrayLiteralExpression => exact ⟨_, rfl, admits_arrayLiteral h hn hc hk⟩
  case objectLiteralExpression => exact ⟨_, rfl, admits_objectLiteral h hn hc hchecker hk⟩
  case propertyAssignment | shorthandPropertyAssignment =>
    exact ⟨_, rfl, admits_assignment h hn hc (by rw [hk]; rfl) (by rw [hk]; rfl) (by decide)
      (by decide)⟩
  case block => exact ⟨_, rfl, admits_blockStatement h hn hc hk⟩
  case expressionStatement => exact ⟨_, rfl, admits_expressionStatement h hn hc hk⟩
  case ifStatement => exact ⟨_, rfl, admits_ifStatement h hn hc hk⟩
  case forOfStatement => exact ⟨_, rfl, admits_forOfStatement h hn hc hk⟩
  case variableDeclaration => exact ⟨_, rfl, admits_variableDeclaration h hn hc hchecker hk⟩
  case classDeclaration => exact ⟨_, rfl, admits_classDeclaration h hn hc hk⟩
  case interfaceDeclaration => exact ⟨_, rfl, admits_interfaceDeclaration h hn hc hk⟩
  case propertySignature => exact ⟨_, rfl, admits_propertySignature h hn hc hchecker hk⟩
  case methodSignature => exact ⟨_, rfl, admits_methodSignature h hn hc hchecker hk⟩
  case propertyDeclaration => exact ⟨_, rfl, admits_propertyDeclaration h hn hc hchecker hk⟩
  case typeNode | heritageClause | templateSpan => exact absurd (hk ▸ hinner) (by decide)
  case identifier | stringLiteral => exact absurd (hk ▸ hnames) (by decide)
  all_goals exact absurd (hk ▸ hshared) (by decide)

end

/-! ### Whole trees -/

/-- What is written for a name or a string, in any context. -/
theorem writes_names (hn : n.IsTidyProgram) (hk : n.kind ∈ [.identifier, .stringLiteral]) :
    ∃ rule, rule? (.blanks k) n.kind = some rule ∧
      (rule view n).Gives (Writes k view.context n) := by
  have term {s : String} (hs : Text.IsTerm s) (hform : n.kind.form = .term) :
      Writes k view.context n (row [.text s]) := by
    right
    rw [hform]
    exact isTerm_row_singleton hs.isTerm false
  rw [List.mem_cons, List.mem_singleton] at hk
  rcases hk with hk | hk
  · obtain ⟨s, hs, htidy⟩ := Node.tidy_text hn.isTidy (by rw [hk]; decide)
    refine ⟨identifier, by rw [hk]; rfl, (gives_identifier view hs).mono ?_⟩
    rintro _ rfl
    exact term (isTerm_spelledName _ _ htidy) (by rw [hk]; rfl)
  · obtain ⟨s, hs, hquiet⟩ := Node.quiet_text hn.isTidy (f := .text) (by rw [hk]; rfl)
    refine ⟨stringLiteral, by rw [hk]; rfl, (gives_stringLiteral view hs).mono ?_⟩
    rintro _ rfl
    split
    · rename_i htruthy
      refine Or.inl ⟨isPhrase_row ?_ false, htruthy⟩
      exact List.forall_mem_singleton.2 (isPhrase_of_consists (consists_spelledName _ _ hquiet))
    · exact term (Text.isTerm_quote hquiet) (by rw [hk]; rfl)

/-- What is written for a tidy tree keeps what is written before it indented by its braces. -/
theorem writes_convert {checker : Checker} (hchecker : checker.IsTidy) (preferStruct : Data)
    {c : Flags} (hn : Meets c n) :
    ((backend (.blanks k) preferStruct).convert checker c n.toValue).Gives (Writes k c n) := by
  refine Backend.convert_gives Meets (Writes k) ?_ hn
  intro c m f hm ih
  have hrule : ∃ rule, rule? (.blanks k) m.kind = some rule ∧
      (rule ⟨c, checker, f⟩ m).Gives (Writes k c m) := by
    by_cases hnames : m.kind ∈ [.identifier, .stringLiteral]
    · exact writes_names hm.tidy hnames
    · have hc : Ordinary c := by
        refine ⟨hm.className, ?_⟩
        rw [← Bool.not_eq_true]
        exact fun htruthy => hnames (hm.asIdentifier htruthy)
      have h : RendersTidy k (View.mk c checker f).convertIn m := ih
      obtain ⟨rule, hrule, hgives⟩ := admits_rule h hm.tidy hc hchecker hm.kind hnames
      exact ⟨rule, hrule, hgives.mono fun _ hx => Or.inr hx⟩
  obtain ⟨rule, hrule, hgives⟩ := hrule
  unfold Backend.visit
  rw [show (backend (.blanks k) preferStruct).rule? m.kind = some rule from hrule]
  exact hgives

end CSharp

/-- A tidy checker answers from the nodes or from tables. -/
theorem Checker.IsTidy.isTabled {checker : Checker} (h : checker.IsTidy) : checker.IsTabled := by
  refine h.imp id ?_
  rintro ⟨ascriptions, expressions, rfl, htidy⟩
  exact ⟨ascriptions, expressions, rfl, fun x hx => (Ty.named_isTerm (htidy x hx)).spelled⟩

/-- The C# text of a tidy source file is balanced, and each line of it that is not empty starts with
exactly the blanks that its open braces ask for, `k` for each brace. This holds for every tree in
which names, numbers, operators, recorded sources and types are tidy, strings and templates are
without line breaks and braces, and bodies are blocks. -/
theorem braced_rendering {root : Value} {checker : Checker} {options : List (String × Data)}
    {o : Target.Options} {k : Nat} (hkind : root.isKind .sourceFile = true)
    (htidy : root.all (fun m => m.isShaped .source && m.isTidy) = true)
    (hchecker : checker.IsTidy) (hoptions : ∀ o ∈ options, Target.IsOption o)
    (ho : Target.Options.ofMembers options = .ok o) (hindent : o.indent = .blanks k) :
    ∃ r, Target.render (.text CSharp.name) options checker root = .ok r ∧
      Text.Braced k r.text := by
  obtain ⟨n, hn⟩ : ∃ n, root.node? = some n := by
    cases h : root.node? with
    | none => simp [Value.isKind, Value.kind?, h] at hkind
    | some n => exact ⟨n, rfl⟩
  obtain rfl := Value.toValue_of_node? hn
  have hfile : n.kind = .sourceFile := by simpa [Value.isKind, Value.kind?] using hkind
  have htree : n.IsTidyProgram := htidy
  have hinner : n.kind ∉ Kind.inner := by rw [hfile]; decide
  have hwhole : o.indent.isWhole = true := by rw [hindent]; rfl
  obtain ⟨f, hf, -, hrender⟩ := CSharp.finishes hwhole o.preferStruct ⟨htree.isProgram, hinner⟩
    hchecker.isTabled
  refine ⟨_, (Target.render_eq hoptions ho).trans hrender, ?_⟩
  rw [hindent] at hf
  obtain ⟨g, hg, hwrites⟩ := CSharp.writes_convert (k := k) hchecker o.preferStruct
    (c := (CSharp.backend (.blanks k) o.preferStruct).initial)
    ⟨htree, hinner, Or.inl rfl, fun htruthy => by cases htruthy⟩
  obtain rfl : f = g := by
    rw [hf] at hg
    exact Except.ok.inj hg
  have hkeeps := hwrites.admits ⟨Or.inl rfl, rfl⟩
  rw [hfile] at hkeeps
  exact Layout.Fragment.braced_render hkeeps

/-- A source file with a method that loops and decides, and a call with an object literal. -/
def ledger : Value :=
  let recorded (s : String) : Value := .node .identifier .unknown (.text s) none [.text s]
  let number (s : String) : Value := .node .numericLiteral .unknown (.text s) none [.text s]
  let literal := Value.bare .objectLiteralExpression [
    .list [.bare .propertyAssignment [recorded "amount", number "1"]]]
  let call := Value.bare .expressionStatement [
    .bare .callExpression [recorded "post", .list [literal]]]
  let loop := Value.bare .forOfStatement [
    .bare .variableDeclarationList [
      .list [.bare .variableDeclaration [recorded "entry", .null, .null]], .text "const"],
    recorded "entries", .bare .block [.list [call]]]
  let inner := Value.bare .ifStatement [recorded "open", .bare .block [.list []],
    .bare .block [.list [.bare .returnStatement [.null]]]]
  let decision := Value.bare .ifStatement [recorded "due", .bare .block [.list [loop]], inner]
  .bare .sourceFile [
    .list [.bare .classDeclaration [recorded "Ledger", .list [],
      .list [.bare .methodDeclaration [recorded "close", .list [], .null,
        .bare .block [.list [decision]]]]]],
    .text "ledger.ts"]

/-- The ledger is shaped and tidy, and its text obeys the law with two blanks for a brace. -/
theorem braced_rendering_ledger :
    ledger.all (fun m => m.isShaped .source && m.isTidy) = true ∧
    ∃ r, Target.render (.text CSharp.name) [("indent", .int 2)] .recorded ledger = .ok r ∧
      Text.Braced 2 r.text := by
  have htidy : ledger.all (fun m => m.isShaped .source && m.isTidy) = true := by decide
  have hoptions : ∀ o ∈ [("indent", Data.int 2)], Target.IsOption o := by
    intro o ho
    obtain rfl := List.mem_singleton.1 ho
    exact Or.inr ⟨rfl, 2, rfl⟩
  exact ⟨htidy, braced_rendering rfl htidy (Or.inl rfl) hoptions rfl rfl⟩

end CodeSample

import CodeSample.Render.Session
import CodeSample.Target.CSharp
import Mathlib.Data.List.Forall2

/-!
# What holds all through a session

The views of a session share its visitor and its diagnostics, but not their contexts. Whatever is
asked of them, and in whatever order, a view keeps the context that it was derived with, and what it
makes of a value has nothing to do with what was asked before, unless the visitor itself reads it.

* `Session.run` takes several steps; `Session.extends_step` says that a step only adds to a session;
* `Session.RendersAs` says what a conversion adds to a session and answers. What a visitor reads of
  the session determines it (`Session.rendersAs_of_reads`), and an oblivious visitor, which reads
  nothing, always does what it does alone (`Session.rendersAs_alone`);
* `LawfulSettings` are settings that can be read and are replaced one by one, as those of all
  contexts here are; `Overlays` says that a context is another one with an update laid over it, and
  `Settings.merge_overlays`, `Settings.merge_unknown` what an update makes of a context;
* `Visitor.MergesSettings` visitors derive contexts by their settings; `Session.derivations`
  collects the updates that the views are derived by, `Session.overlays_step` is what a step keeps
  of them, and `Session.run_spec` is what holds after all steps;
* tables of rules make visitors of both sorts: `Backend.mergesSettings_visitor`,
  `Backend.oblivious_visitor`, and `Session.rendersAs_backend` says how they render.
-/

namespace CodeSample

variable {C : Type}

/-! ### What a step keeps -/

/-- What is reported by a request that asks nothing of the visitor. -/
def Request.reports? : Request → Option (List Diagnostic)
  | .convert _ | .update _ => none
  | .report v message => some (Run.report v message).reports
  | _ => some []

namespace Session

/-- A session is another one with views and diagnostics added. -/
structure Extends (s' s : Session C) : Prop where
  visitor : s'.visitor = s.visitor
  checker : s'.checker = s.checker
  views : s.views <+: s'.views
  reports : s.reports <+: s'.reports

/-- Every session extends itself. -/
theorem Extends.refl (s : Session C) : Extends s s :=
  ⟨rfl, rfl, List.prefix_refl _, List.prefix_refl _⟩

/-- What extends an extension of a session extends the session. -/
theorem Extends.trans {s'' s' s : Session C} (h' : Extends s'' s') (h : Extends s' s) :
    Extends s'' s :=
  ⟨h'.visitor.trans h.visitor, h'.checker.trans h.checker, h.views.trans h'.views,
    h.reports.trans h'.reports⟩

/-- Any script on a view only adds diagnostics. -/
theorem extends_perform {α : Type} (s : Session C) (script : Script α)
    (answer : α → Nat → Except Fault Answer) : Extends (s.perform script answer).1 s :=
  ⟨rfl, rfl, List.prefix_refl _, script.prefix_run s.kept s.reports⟩

section

variable [Settings C]

/-- Deriving a context only adds diagnostics, and at most a view. -/
theorem extends_derive (s : Session C) (context : C) (settings : List (String × Data)) :
    Extends (s.derive context settings).1 s := by
  have hreports := (s.visitor.merge context settings).prefix_run s.kept s.reports
  unfold derive
  dsimp only
  split
  · exact ⟨rfl, rfl, List.prefix_append _ _, hreports⟩
  · exact ⟨rfl, rfl, List.prefix_refl _, hreports⟩

/-- A step adds views and diagnostics only, also one that fails. -/
theorem extends_step (s : Session C) (view : Nat) (request : Request) :
    Extends (s.step view request).1 s := by
  unfold step
  split
  · rename_i c _
    cases request with
    | convert v => exact s.extends_perform _ _
    | report v message => exact s.extends_perform _ _
    | update settings => exact s.extends_derive c settings
    | _ => exact .refl s
  · exact .refl s

/-- A session after some steps, each of which asks something of a view. -/
def run (s : Session C) (steps : List (Nat × Request)) : Session C :=
  steps.foldl (fun s x => (s.step x.1 x.2).1) s

/-- Whatever is asked, views and diagnostics are only added to. -/
theorem extends_run (s : Session C) (steps : List (Nat × Request)) : Extends (s.run steps) s := by
  induction steps generalizing s with
  | nil => exact .refl s
  | cons x steps ih => exact (ih _).trans (s.extends_step x.1 x.2)

/-- A request that asks nothing of the visitor leaves everything but the diagnostics as it is. -/
theorem step_of_reports? (s : Session C) {view : Nat} (hview : view < s.views.length)
    {request : Request} {ds : List Diagnostic} (h : request.reports? = some ds) :
    (s.step view request).1 = { s with reports := s.reports ++ ds } := by
  rw [step, List.getElem?_eq_getElem hview]
  cases request with
  | convert v => cases h
  | update settings => cases h
  | report v message =>
    obtain rfl := Option.some.inj h
    show (s.perform (Run.report v message).script _).1 = _
    rw [perform, Script.run_script]
  | _ =>
    obtain rfl := Option.some.inj h
    rw [List.append_nil]
    rfl

/-- A request that is no update derives no view. -/
theorem views_step {s : Session C} {view : Nat} {request : Request}
    (h : ∀ settings, request ≠ .update settings) : (s.step view request).1.views = s.views := by
  unfold step
  split
  · cases request with
    | update settings => exact absurd rfl (h settings)
    | _ => rfl
  · rfl

end

end Session

/-! ### What a conversion depends on -/

/-- What a script reports and comes to on its own, with nothing reported before it. -/
def Script.alone {α : Type} (script : Script α) (kept : Data) : Run α :=
  ⟨(script.run kept []).2.1, (script.run kept []).2.2⟩

/-- A visitor that reads neither the diagnostics nor what it has kept while it renders a value. All
that it goes by is the value, the context and the checker. -/
def Visitor.Oblivious (visitor : Visitor C) : Prop :=
  ∀ checker c v kept ds, (visitor.convert checker c v).reads kept ds = []

/-- A visitor that gives up once something has been reported is not oblivious, and what it makes of
a value is not the same before and after a report. -/
example (checker : Checker) (d : Diagnostic) (v : Value) :
    let visitor : Visitor Plain :=
      { kept := .null
        merge := fun c _ => .done (.ok c)
        visit := fun _ _ _ => .look fun ds =>
          .done (if ds.isEmpty then .ok .empty else .error .noProperty) }
    ((visitor.visit checker {} v).run .null []).2.2 = .ok .empty ∧
      ((visitor.visit checker {} v).run .null [d]).2.2 = .error .noProperty := by
  exact ⟨rfl, rfl⟩

section

variable [Settings C]

namespace Session

/-- Rendering a value in a view goes as a run says: what the run reports joins the diagnostics, the
answer is the outcome of the run, and no view is added. -/
def RendersAs (s : Session C) (view : Nat) (v : Value) (r : Run Layout.Fragment) : Prop :=
  let next := s.step view (.convert v)
  next.1.views = s.views ∧ next.1.reports = s.reports ++ r.reports ∧
  next.2 = do
    let f ← r.outcome
    return .rendered (← f.output) f.isEmpty (s.reports ++ r.reports).length

variable {s s' : Session C} {view view' : Nat} {c : C}

/-- A conversion goes as a run when the script of the visitor does. -/
theorem rendersAs_of_run (hview : s.views[view]? = some c) {v : Value} {r : Run Layout.Fragment}
    (h : ((s.visitor.convert s.checker c v).run s.kept s.reports).2 =
      (s.reports ++ r.reports, r.outcome)) : s.RendersAs view v r := by
  have hstep : s.step view (.convert v) =
      s.perform (s.visitor.convert s.checker c v) fun f reported => do
        return .rendered (← f.output) f.isEmpty reported := by
    rw [step, hview]
    rfl
  rw [RendersAs, hstep, perform]
  generalize (s.visitor.convert s.checker c v).run s.kept s.reports = ran at h ⊢
  obtain ⟨kept, reports, outcome⟩ := ran
  obtain ⟨rfl, rfl⟩ := Prod.mk.inj h
  exact ⟨rfl, rfl, rfl⟩

/-- In two views with one context a value is rendered alike, as long as the visitor reads the same
of both sessions. -/
theorem rendersAs_of_reads (hvisitor : s'.visitor = s.visitor) (hchecker : s'.checker = s.checker)
    (hview : s.views[view]? = some c) (hview' : s'.views[view']? = some c) {v : Value}
    (h : (s.visitor.convert s.checker c v).reads s.kept s.reports =
      (s.visitor.convert s.checker c v).reads s'.kept s'.reports) :
    ∃ r, s.RendersAs view v r ∧ s'.RendersAs view' v r := by
  obtain ⟨r, hr, hr'⟩ := Script.exists_run_of_reads _ h
  refine ⟨r, rendersAs_of_run hview hr, rendersAs_of_run hview' ?_⟩
  rw [hvisitor, hchecker]
  exact hr'

/-- An oblivious visitor renders a value as it does on its own, whatever was reported and kept
before. -/
theorem rendersAs_alone (h : s.visitor.Oblivious) (hview : s.views[view]? = some c) (v : Value)
    (kept : Data) : s.RendersAs view v ((s.visitor.convert s.checker c v).alone kept) := by
  have hreads : (s.visitor.convert s.checker c v).reads s.kept s.reports =
      (s.visitor.convert s.checker c v).reads kept [] := by
    rw [h, h]
  obtain ⟨r, hr, halone⟩ := Script.exists_run_of_reads _ hreads
  refine rendersAs_of_run hview (hr.trans ?_)
  rw [Script.alone, halone]
  rfl

/-- The visitor of a table of rules renders a value as the rules do. -/
theorem rendersAs_backend {backend : Backend C} (hvisitor : s.visitor = backend)
    (hview : s.views[view]? = some c) (v : Value) :
    s.RendersAs view v (backend.convert s.checker c v) := by
  refine rendersAs_of_run hview ?_
  rw [hvisitor, Backend.visitor_convert, Script.run_script]

end Session

/-- A visitor that derives contexts as their settings say. -/
def Visitor.MergesSettings (visitor : Visitor C) : Prop :=
  ∀ c update, visitor.merge c update = .done (Settings.merge c update)

namespace Backend

/-- The visitor of a table of rules derives contexts as their settings say. -/
theorem mergesSettings_visitor (backend : Backend C) : backend.visitor.MergesSettings :=
  fun _ _ => rfl

/-- The visitor of a table of rules reads nothing of a session. -/
theorem oblivious_visitor (backend : Backend C) : backend.visitor.Oblivious := by
  intro checker c v kept ds
  rw [visitor_convert, Script.reads_script]

end Backend

end

/-! ### Settings that can be read -/

/-- Settings that can be read by name. All contexts of a kind have settings of the same names, one
of them is replaced without the others, and a context is what its settings are. -/
class LawfulSettings (C : Type) [Settings C] where
  /-- The setting of a name, if there is one. -/
  read? : C → String → Option Value
  isSome_read? : ∀ (c c' : C) (name : String), (read? c name).isSome = (read? c' name).isSome
  isSome_set? : ∀ (c : C) (name : String) (d : Data),
    (Settings.set? c name d).isSome = (read? c name).isSome
  read?_set? : ∀ {c c' : C} {name : String} {d : Data}, Settings.set? c name d = some c' →
    ∀ other, read? c' other = if other = name then some (.ofData d) else read? c other
  ext : ∀ {c c' : C}, (∀ name, read? c name = read? c' name) → c = c'

open LawfulSettings (read?)

instance : LawfulSettings Plain where
  read? _ _ := none
  isSome_read? _ _ _ := rfl
  isSome_set? _ _ _ := rfl
  read?_set? h := by cases h
  ext _ := rfl

mutual

/-- The datum of a value that was made from a datum is that datum. -/
theorem Value.plain_ofData : ∀ d : Data, (Value.ofData d).plain = .ok d
  | .null | .bool _ | .int _ | .float _ | .text _ | .object _ => rfl
  | .list ds => by
    rw [ofData, plain, plainItems_ofItems ds]
    rfl

/-- The data of items that were made from data are those data. -/
theorem Value.plainItems_ofItems : ∀ ds : List Data,
    Value.plainItems (Value.ofItems ds) = .ok ds
  | [] => rfl
  | d :: ds => by
    rw [ofItems, plainItems, plain_ofData d, plainItems_ofItems ds]
    rfl

end

/-- Different data are different values. -/
theorem Value.ofData_injective {d d' : Data} (h : Value.ofData d = Value.ofData d') : d = d' := by
  have hplain := congrArg Value.plain h
  rwa [Value.plain_ofData, Value.plain_ofData, Except.ok.injEq] at hplain

namespace CSharp.Flags

/-- A setting of the C# context by its name. -/
def read? (c : Flags) : String → Option Value
  | "current_class_name" => some c.className
  | "property_or_method" => some (.ofData c.memberPosition)
  | "in_struct_interface" => some (.ofData c.dataInterface)
  | "in_key_value_list" => some (.ofData c.keyValue)
  | "string_as_identifier" => some (.ofData c.stringAsIdentifier)
  | "identifier_as_string" => some (.ofData c.identifierAsString)
  | "prefer_object_literal_as_struct" => some (.ofData c.preferStruct)
  | _ => none

instance : LawfulSettings Flags where
  read? := read?
  isSome_read? c c' name := by
    unfold read?
    split <;> rfl
  isSome_set? c name d := by
    simp only [read?, Settings.set?]
    split <;> simp
  read?_set? {c c' name d} h other := by
    simp only [Settings.set?] at h
    unfold read?
    split at h <;> cases h <;> (split <;> simp_all)
  ext {c c'} h := by
    have switch {d d' : Data} (hd : some (Value.ofData d) = some (Value.ofData d')) : d = d' :=
      Value.ofData_injective (Option.some.inj hd)
    cases c
    cases c'
    rw [mk.injEq]
    exact ⟨Option.some.inj (h "current_class_name"), switch (h "property_or_method"),
      switch (h "in_struct_interface"), switch (h "in_key_value_list"),
      switch (h "string_as_identifier"), switch (h "identifier_as_string"),
      switch (h "prefer_object_literal_as_struct")⟩

end CSharp.Flags

/-! ### Updates -/

variable [Settings C] [LawfulSettings C]

/-- A context is another one with settings laid over it: the last one of a name counts, and
everything else is as it was. -/
def Overlays (base : C) (update : List (String × Data)) (c : C) : Prop :=
  ∀ name, read? c name = ((update.reverse.lookup name).map Value.ofData).or (read? base name)

namespace Overlays

variable {a b c : C} {update later : List (String × Data)}

/-- Without an update a context stays as it is. -/
theorem nil (c : C) : Overlays c [] c := fun _ => rfl

/-- Replacing one setting lays it over the context. -/
theorem single {name : String} {d : Data} (h : Settings.set? a name d = some b) :
    Overlays a [(name, d)] b := by
  intro other
  rw [LawfulSettings.read?_set? h]
  by_cases hname : other = name
  · simp [hname]
  · simp [hname, List.lookup_cons, beq_eq_false_iff_ne.2 hname]

/-- Two updates laid one over the other are their concatenation laid over. -/
theorem append (h : Overlays a update b) (hlater : Overlays b later c) :
    Overlays a (update ++ later) c := by
  intro name
  rw [hlater name, h name, List.reverse_append, List.lookup_append, Option.map_or, Option.or_assoc]

/-- There is only one context that is another one with an update laid over it. -/
theorem unique (h : Overlays a update b) (hc : Overlays a update c) : b = c :=
  LawfulSettings.ext fun name => (h name).trans (hc name).symm

end Overlays

namespace Settings

/-- Whether all names of an update are those of settings. -/
def knows (c : C) (update : List (String × Data)) : Bool :=
  update.all fun setting => (read? c setting.1).isSome

/-- All contexts of a kind know the same names. -/
theorem knows_congr (c c' : C) (update : List (String × Data)) : knows c update = knows c' update :=
  List.all_congr rfl fun setting => LawfulSettings.isSome_read? c c' setting.1

/-- An update of known names is laid over the context. -/
theorem merge_overlays (c : C) {update : List (String × Data)} (h : knows c update = true) :
    ∃ c', merge c update = .ok c' ∧ Overlays c update c' := by
  induction update generalizing c with
  | nil => exact ⟨c, rfl, .nil c⟩
  | cons setting update ih =>
    obtain ⟨name, d⟩ := setting
    rw [knows, List.all_cons, Bool.and_eq_true] at h
    obtain ⟨hname, hupdate⟩ := h
    obtain ⟨next, hnext⟩ : ∃ next, set? c name d = some next := by
      rwa [← Option.isSome_iff_exists, LawfulSettings.isSome_set?]
    obtain ⟨c', hc', hoverlays⟩ := ih next ((knows_congr next c update).trans hupdate)
    refine ⟨c', ?_, (Overlays.single hnext).append hoverlays⟩
    have hset : set c (name, d) = .ok next := by rw [set, hnext]
    rw [merge, List.foldlM_cons, hset]
    exact hc'

/-- An update of a name that is unknown is a fault. -/
theorem merge_unknown (c : C) {update : List (String × Data)} (h : knows c update = false) :
    merge c update = .error .wrongSort := by
  induction update generalizing c with
  | nil => cases h
  | cons setting update ih =>
    rw [knows, List.all_cons] at h
    rw [merge, List.foldlM_cons, set]
    cases hnext : set? c setting.1 setting.2 with
    | none => rfl
    | some next =>
      have hname : (read? c setting.1).isSome = true := by
        rw [← LawfulSettings.isSome_set? c setting.1 setting.2, hnext]
        rfl
      rw [hname, Bool.true_and] at h
      exact ih next ((knows_congr next c update).trans h)

end Settings

/-! ### Sessions -/

namespace Session

/-- The updates by which views are derived, after one more step. -/
def derivation (initial : C) (paths : List (List (String × Data))) (view : Nat) :
    Request → List (List (String × Data))
  | .update settings =>
    if Settings.knows initial settings then
      paths ++ (paths[view]?.map (· ++ settings)).toList
    else paths
  | _ => paths

/-- The updates by which the views of a session are derived from its first one. An update of known
names adds a view, and nothing else does. -/
def derivations (initial : C) (steps : List (Nat × Request)) : List (List (String × Data)) :=
  steps.foldl (fun paths x => derivation initial paths x.1 x.2) [[]]

section

variable {s : Session C} (h : s.visitor.MergesSettings) {view : Nat} {c : C}
  (hview : s.views[view]? = some c) {settings : List (String × Data)}

include h hview

/-- An update of a name that is unknown leaves the session as it is. -/
theorem step_update_unknown (hknows : Settings.knows c settings = false) :
    s.step view (.update settings) = (s, .error .wrongSort) := by
  rw [step, hview]
  show s.derive c settings = _
  rw [derive, h c settings, Settings.merge_unknown c hknows]
  rfl

/-- An update of known names adds a view whose context is that of the view with the update laid over
it, and does nothing else. -/
theorem step_update_known (hknows : Settings.knows c settings = true) :
    ∃ c', Overlays c settings c' ∧ s.step view (.update settings) =
      ({ s with views := s.views ++ [c'] },
        do return .derived s.views.length (← Settings.toData c')) := by
  obtain ⟨c', hc', hoverlays⟩ := Settings.merge_overlays c hknows
  refine ⟨c', hoverlays, ?_⟩
  rw [step, hview]
  show s.derive c settings = _
  rw [derive, h c settings, hc']
  rfl

end

/-- A step keeps that every view has the first context with its updates laid over it. -/
theorem overlays_step {s : Session C} (hmerges : s.visitor.MergesSettings) {initial : C}
    {paths : List (List (String × Data))}
    (h : List.Forall₂ (Overlays initial) paths s.views) (view : Nat) (request : Request) :
    List.Forall₂ (Overlays initial) (derivation initial paths view request)
      (s.step view request).1.views := by
  obtain ⟨hlength, hget⟩ := List.forall₂_iff_get.1 h
  cases request with
  | update settings =>
    by_cases hview : view < s.views.length
    · have hpath : view < paths.length := hlength ▸ hview
      have hc : s.views[view]? = some s.views[view] := List.getElem?_eq_getElem hview
      rw [derivation, List.getElem?_eq_getElem hpath,
        Settings.knows_congr initial s.views[view] settings]
      split
      · rename_i hknows
        obtain ⟨c', hoverlays, hstep⟩ := step_update_known hmerges hc hknows
        rw [hstep]
        exact List.rel_append h (.cons ((hget view hpath hview).append hoverlays) .nil)
      · rename_i hknows
        rw [step_update_unknown hmerges hc (Bool.eq_false_iff.2 hknows)]
        exact h
    · -- there is no such view
      have hpath : paths[view]? = none := List.getElem?_eq_none (by omega)
      rw [derivation, hpath, step, List.getElem?_eq_none (by omega)]
      simpa using h
  | _ =>
    rw [views_step (by simp)]
    exact h

/-- After all steps every view has the first context with its updates laid over it. -/
theorem overlays_run {s : Session C} (hmerges : s.visitor.MergesSettings) {initial : C}
    {paths : List (List (String × Data))}
    (h : List.Forall₂ (Overlays initial) paths s.views) (steps : List (Nat × Request)) :
    List.Forall₂ (Overlays initial)
      (steps.foldl (fun paths x => derivation initial paths x.1 x.2) paths)
      (s.run steps).views := by
  induction steps generalizing s paths with
  | nil => exact h
  | cons x steps ih =>
    have hnext : (s.step x.1 x.2).1.visitor.MergesSettings := by
      rw [(s.extends_step x.1 x.2).visitor]
      exact hmerges
    exact ih hnext (overlays_step hmerges h x.1 x.2)

/-- A block with a loop that declares no variable, which is reported, and after it a number. -/
def unfinished : Value :=
  let node (line : Nat) (kind : Kind) (fields : List Value) : Value :=
    .node kind ⟨line, 1⟩ (.text "") none fields
  node 1 .block [.list [
    node 2 .forOfStatement [node 3 .identifier [.text "key"], node 4 .identifier [.text "entries"],
      node 5 .block [.list []]],
    node 6 .expressionStatement [node 7 .numericLiteral [.text "1"]]]]

/-- Two updates, one in the view of the other, and between them one of a name that is unknown and a
conversion. -/
def scopes : List (Nat × Request) :=
  [(0, .update [("property_or_method", .bool true)]),
    (0, .update [("in_key_value_list", .bool true), ("class_name", .text "A")]),
    (0, .convert unfinished),
    (1, .update [("property_or_method", .bool false), ("current_class_name", .text "A")])]

end Session

end CodeSample

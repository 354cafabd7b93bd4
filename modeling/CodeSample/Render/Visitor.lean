import CodeSample.Render.Backend
import CodeSample.Render.Context

/-!
# Visitors

A visitor renders the values of a session. All that the session sees of it is what it does while it
visits a value: it reports problems, it may read the diagnostics so far, and it may keep something
from one visit to the next. What it does is a script. The conversions of the parts of a value are
not steps of their own: they do nothing else to a session, so that they are spelled out.

* `Script` is what is done, one thing after the other, and `Script.run` does it;
* `Script.reads` is what a script reads of a session: `Script.exists_run_of_reads` says that nothing
  else of it matters;
* `Visitor` is how contexts are derived and values are visited, by scripts;
* `Backend.visitor` is the visitor of a table of rules. The rules only report: `Run.script` is the
  script of a run, and `Script.run_script` what it does.
-/

namespace CodeSample

open Layout (Fragment)

/-- What is done to a session, up to an answer or a fault. A fault that is caught on the way is not
seen from outside. -/
inductive Script (α : Type) where
  /-- Nothing is left to do. -/
  | done (outcome : Except Fault α)
  /-- Reports a diagnostic. -/
  | report (d : Diagnostic) (next : Script α)
  /-- Reads the diagnostics so far. -/
  | look (next : List Diagnostic → Script α)
  /-- Reads what has been kept. -/
  | fetch (next : Data → Script α)
  /-- Keeps something, in place of what has been kept. -/
  | keep (kept : Data) (next : Script α)

/-- The script of a run, which reports what the run reports and ends as it does. -/
def Run.script {α : Type} (r : Run α) : Script α := r.reports.foldr .report (.done r.outcome)

namespace Script

variable {α : Type}

/-- What is kept, the diagnostics and the outcome after a script. -/
def run : Script α → Data → List Diagnostic → Data × List Diagnostic × Except Fault α
  | .done outcome, kept, ds => (kept, ds, outcome)
  | .report d next, kept, ds => next.run kept (ds ++ [d])
  | .look next, kept, ds => (next ds).run kept ds
  | .fetch next, kept, ds => (next kept).run kept ds
  | .keep kept next, _, ds => next.run kept ds

/-- What a script reads of a session, one thing after the other: the diagnostics so far, or what has
been kept. -/
def reads : Script α → Data → List Diagnostic → List (List Diagnostic ⊕ Data)
  | .done _, _, _ => []
  | .report d next, kept, ds => next.reads kept (ds ++ [d])
  | .look next, kept, ds => .inl ds :: (next ds).reads kept ds
  | .fetch next, kept, ds => .inr kept :: (next kept).reads kept ds
  | .keep kept next, _, ds => next.reads kept ds

/-- A script that reads the same twice adds the same diagnostics and has the same outcome, whatever
else is different. -/
theorem exists_run_of_reads (script : Script α) {kept kept' : Data} {ds ds' : List Diagnostic}
    (h : script.reads kept ds = script.reads kept' ds') :
    ∃ r : Run α, (script.run kept ds).2 = (ds ++ r.reports, r.outcome) ∧
      (script.run kept' ds').2 = (ds' ++ r.reports, r.outcome) := by
  induction script generalizing kept kept' ds ds' with
  | done outcome => exact ⟨⟨[], outcome⟩, by simp [run]⟩
  | report d next ih =>
    obtain ⟨r, hr, hr'⟩ := ih h
    refine ⟨⟨d :: r.reports, r.outcome⟩, ?_, ?_⟩
    · rw [run, hr, List.append_assoc]
      rfl
    · rw [run, hr', List.append_assoc]
      rfl
  | look next ih =>
    obtain ⟨hds, hnext⟩ := List.cons.inj h
    obtain rfl := Sum.inl.inj hds
    exact ih ds hnext
  | fetch next ih =>
    obtain ⟨hkept, hnext⟩ := List.cons.inj h
    obtain rfl := Sum.inr.inj hkept
    exact ih kept hnext
  | keep kept next ih => exact ih h

/-- A script only adds to the diagnostics, whatever it reads and however it ends. -/
theorem prefix_run (script : Script α) (kept : Data) (ds : List Diagnostic) :
    ds <+: (script.run kept ds).2.1 := by
  obtain ⟨r, hr, -⟩ := script.exists_run_of_reads (rfl : script.reads kept ds = _)
  rw [hr]
  exact List.prefix_append ds r.reports

/-- The script of a run adds the reports of the run, and keeps nothing. -/
theorem run_script (r : Run α) (kept : Data) (ds : List Diagnostic) :
    r.script.run kept ds = (kept, ds ++ r.reports, r.outcome) := by
  obtain ⟨reports, outcome⟩ := r
  induction reports generalizing ds with
  | nil => exact Prod.ext rfl (Prod.ext (List.append_nil ds).symm rfl)
  | cons d reports ih =>
    refine (ih (ds ++ [d])).trans ?_
    rw [List.append_assoc]
    rfl

/-- The script of a run reads nothing. -/
theorem reads_script (r : Run α) (kept : Data) (ds : List Diagnostic) :
    r.script.reads kept ds = [] := by
  obtain ⟨reports, outcome⟩ := r
  induction reports generalizing ds with
  | nil => rfl
  | cons d reports ih => exact ih (ds ++ [d])

end Script

/-- A visitor of values in contexts of a kind. -/
structure Visitor (C : Type) where
  /-- What is kept at first. -/
  kept : Data
  /-- Derives a context by an update. -/
  merge : C → List (String × Data) → Script C
  /-- Visits a value in a context. -/
  visit : Checker → C → Value → Script Fragment

/-- Renders a value by a visitor. Null is rendered as nothing and is not visited. -/
def Visitor.convert {C : Type} (visitor : Visitor C) (checker : Checker) (context : C) :
    Value → Script Fragment
  | .null => .done (.ok .empty)
  | v => visitor.visit checker context v

namespace Backend

variable {C : Type} [Settings C]

/-- The visitor of a table of rules. It derives contexts as their settings say and keeps nothing. -/
def visitor (backend : Backend C) : Visitor C where
  kept := .null
  merge context update := .done (Settings.merge context update)
  visit checker context v := (backend.convert checker context v).script

instance : Coe (Backend C) (Visitor C) := ⟨visitor⟩

/-- Rendering a value by the visitor of a table of rules is the run of the rules. -/
theorem visitor_convert (backend : Backend C) (checker : Checker) (context : C) (v : Value) :
    backend.visitor.convert checker context v = (backend.convert checker context v).script := by
  cases v <;> rfl

end Backend

end CodeSample

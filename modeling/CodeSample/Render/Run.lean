import CodeSample.Render.Diagnostic

/-!
# Runs

The outcome of rendering something, together with the diagnostics that were reported on the way.
Diagnostics reported before a fault stay.

* `Run` is a monad: `bind_ok` and `bind_error` say that reports are kept in order and that a fault
  ends the run;
* `Run.report` reports a diagnostic on a value, which has to be a node.
-/

namespace CodeSample

/-- An outcome and the diagnostics reported before it. -/
structure Run (α : Type) where
  reports : List Diagnostic
  outcome : Except Fault α

namespace Run

variable {α β : Type}

/-- A run that reports nothing. -/
def ofExcept (outcome : Except Fault α) : Run α := ⟨[], outcome⟩

/-- A run that ends in a fault. -/
def fail (fault : Fault) : Run α := ⟨[], .error fault⟩

/-- A run, and after it one that depends on its answer. -/
def andThen (r : Run α) (next : α → Run β) : Run β :=
  match r.outcome with
  | .ok a => ⟨r.reports ++ (next a).reports, (next a).outcome⟩
  | .error fault => ⟨r.reports, .error fault⟩

instance : Monad Run where
  pure a := ⟨[], .ok a⟩
  bind := andThen

instance : MonadLift (Except Fault) Run where
  monadLift := ofExcept

/-! ### How runs compose -/

/-- A run that only answers reports nothing. -/
@[simp] theorem pure_eq (a : α) : (pure a : Run α) = ⟨[], .ok a⟩ := rfl

/-- After an answer, a run goes on, and what it reports comes later. -/
@[simp] theorem bind_ok (reports : List Diagnostic) (a : α) (next : α → Run β) :
    (⟨reports, .ok a⟩ : Run α) >>= next = ⟨reports ++ (next a).reports, (next a).outcome⟩ := rfl

/-- After a fault, it does not go on. -/
@[simp] theorem bind_error (reports : List Diagnostic) (fault : Fault) (next : α → Run β) :
    (⟨reports, .error fault⟩ : Run α) >>= next = ⟨reports, .error fault⟩ := rfl

/-- It does not matter how runs are grouped. -/
theorem andThen_assoc {γ : Type} (r : Run α) (f : α → Run β) (g : β → Run γ) :
    (r >>= f) >>= g = r >>= fun a => f a >>= g := by
  obtain ⟨reports, outcome⟩ := r
  cases outcome with
  | error fault => rfl
  | ok a =>
    rw [bind_ok, bind_ok]
    cases h : f a with
    | mk reports' outcome' =>
      cases outcome' with
      | error fault => rfl
      | ok b => simp [List.append_assoc]

instance : LawfulMonad Run := LawfulMonad.mk' Run
  (by
    intro α r
    obtain ⟨reports, outcome⟩ := r
    cases outcome <;> simp [Functor.map, andThen])
  (by
    intro α β a f
    simp)
  (by
    intro α β γ r f g
    exact andThen_assoc r f g)

/-- What follows a run only matters for the answer that the run has. -/
theorem bind_congr {r : Run α} {f g : α → Run β} (h : ∀ a, r.outcome = .ok a → f a = g a) :
    r >>= f = r >>= g := by
  obtain ⟨reports, outcome⟩ := r
  cases outcome with
  | error fault => rfl
  | ok a => rw [bind_ok, bind_ok, h a rfl]

/-- Only the runs on the items of a list count. -/
theorem mapM_congr {xs : List α} {f g : α → Run β} (h : ∀ x ∈ xs, f x = g x) :
    xs.mapM f = xs.mapM g := by
  induction xs with
  | nil => rfl
  | cons x xs ih =>
    rw [List.mapM_cons, List.mapM_cons, h x (by simp), ih fun y hy => h y (by simp [hy])]

/-! ### Reporting -/

/-- Reports a problem with a value that has to be a node. -/
def report (v : Value) (message : Data) : Run Unit :=
  match v.node? with
  | some n => ⟨[⟨n, message⟩], .ok ()⟩
  | none => fail .noProperty

end Run

end CodeSample

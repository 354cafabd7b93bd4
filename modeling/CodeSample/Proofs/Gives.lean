import CodeSample.Render.Backend

/-!
# What a run gives

A run *gives* something when it ends without a fault and its answer has a property. What a rule
gives follows from what its steps give, one after the other.

* `Run.Gives` is the notion, with one lemma for each way in which runs are put together;
* `View.gives_convertAll`: all that a list holds is rendered if each item is;
* `Backend.convert_gives`: what every rule gives, if the renderings that it asks for do, the whole
  rendering gives. This is the induction over a tree that all results on finished output use.
-/

namespace CodeSample

open Layout (Fragment)

namespace Run

variable {α β : Type}

/-- A run ends without a fault, and its answer has a property. -/
def Gives (r : Run α) (P : α → Prop) : Prop := ∃ a, r.outcome = .ok a ∧ P a

variable {P Q : α → Prop} {R : β → Prop}

/-- A run gives what follows from what it gives. -/
theorem Gives.mono {r : Run α} (h : r.Gives P) (hPQ : ∀ a, P a → Q a) : r.Gives Q := by
  obtain ⟨a, ha, hP⟩ := h
  exact ⟨a, ha, hPQ a hP⟩

/-- A run that only answers gives what holds of the answer. -/
theorem gives_pure {a : α} (h : P a) : (pure a : Run α).Gives P := ⟨a, rfl, h⟩

/-- A run with a known outcome gives what holds of the answer in it. -/
theorem gives_ofExcept {x : Except Fault α} {a : α} (hx : x = .ok a) (h : P a) :
    (liftM x : Run α).Gives P := ⟨a, hx, h⟩

/-- What two runs in a row give. -/
theorem Gives.bind {r : Run α} {next : α → Run β} (h : r.Gives P)
    (hnext : ∀ a, P a → (next a).Gives R) : (r >>= next).Gives R := by
  obtain ⟨a, ha, hP⟩ := h
  obtain ⟨b, hb, hR⟩ := hnext a hP
  obtain ⟨reports, outcome⟩ := r
  dsimp only at ha
  subst ha
  exact ⟨b, hb, hR⟩

/-- After a known answer, a run gives what its rest gives for that answer. -/
theorem gives_bind_ofExcept {x : Except Fault α} {next : α → Run β} {a : α} (hx : x = .ok a)
    (h : (next a).Gives R) : ((liftM x : Run α) >>= next).Gives R :=
  (gives_ofExcept (P := (· = a)) hx rfl).bind fun _ hb => hb ▸ h

/-- Reporting a problem with a node does not fail. -/
theorem gives_report (n : Node) (message : Data) :
    (Run.report n.toValue message).Gives fun _ => True := ⟨(), rfl, trivial⟩

/-- Runs over the items of a list give answers with a property, if each of them does. -/
theorem gives_mapM {xs : List α} {f : α → Run β} (h : ∀ x ∈ xs, (f x).Gives R) :
    (xs.mapM f).Gives fun ys => ∀ y ∈ ys, R y := by
  induction xs with
  | nil => exact gives_pure (by simp)
  | cons x xs ih =>
    rw [List.mapM_cons]
    refine (h x (by simp)).bind fun y hy => ?_
    refine (ih fun z hz => h z (by simp [hz])).bind fun ys hys => ?_
    exact gives_pure (by simpa using ⟨hy, hys⟩)

end Run

namespace View

variable {C : Type} {P : Fragment → Prop}

/-- All that a list holds is rendered if each item is. -/
theorem gives_convertAll {view : View C} {v : Value} {vs : List Value} (hv : v = .list vs)
    (h : ∀ w ∈ vs, (view.convert w).Gives P) :
    (view.convertAll v).Gives fun fs => ∀ f ∈ fs, P f := by
  subst hv
  unfold convertAll
  exact Run.gives_bind_ofExcept rfl (Run.gives_mapM h)

end View

namespace Backend

variable {C : Type} {backend : Backend C}

/-- If every rule gives what is claimed of its node whenever the renderings of less deep nodes do,
the whole rendering gives it. `Pre` says which nodes are met in which contexts. -/
theorem convert_gives {checker : Checker} (Pre : C → Node → Prop)
    (Post : C → Node → Fragment → Prop)
    (step : ∀ c n f, Pre c n →
      (∀ c' m, Pre c' m → m.toValue.depth < n.toValue.depth → (f c' m.toValue).Gives (Post c' m)) →
        (backend.visit ⟨c, checker, f⟩ n).Gives (Post c n))
    {c : C} {n : Node} (h : Pre c n) : (backend.convert checker c n.toValue).Gives (Post c n) := by
  have within : ∀ depth c n, Pre c n → n.toValue.depth ≤ depth →
      (backend.convertWithin checker depth c n.toValue).Gives (Post c n) := by
    intro depth
    induction depth with
    | zero =>
      intro c n _ hdepth
      simp [Node.toValue, Value.depth] at hdepth
    | succ depth ih =>
      intro c n hn hdepth
      rw [Node.toValue, convertWithin]
      exact step c n _ hn fun c' m hm hlt => ih c' m hm (by omega)
  exact within _ c n h (Nat.le_refl _)

end Backend

end CodeSample

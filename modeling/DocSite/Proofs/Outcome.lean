import DocSite.Text.Basic

/-!
# What comes of steps that may fail

A pass and a command are made of steps that change a state and may fail. What comes of a step in a
state is its result, with the state that it leaves, whether it fails or not (`outcome`). Steps one
after another end at the first failure.

* `outcome_bind`, `outcome_bind_eq_ok` : two steps.
* `outcome_ext` : a step is told by what comes of it in every state.
* `length_of_outcome_mapM` : steps for the elements of a list.
-/

namespace DocSite

variable {σ ε ε' α β : Type}

/-- What comes of a step in a state: its result, and the state that it leaves. -/
def outcome (m : ExceptT ε (StateM σ) α) (st : σ) : Except ε α × σ := m.run.run st

theorem outcome_ext {m m' : ExceptT ε (StateM σ) α} (h : ∀ st, outcome m st = outcome m' st) :
    m = m' :=
  ExceptT.ext (StateT.ext h)

theorem outcome_pure (a : α) (st : σ) :
    outcome (pure a : ExceptT ε (StateM σ) α) st = (.ok a, st) := rfl

theorem outcome_bind (m : ExceptT ε (StateM σ) α) (f : α → ExceptT ε (StateM σ) β) (st : σ) :
    outcome (m >>= f) st =
      match outcome m st with
      | (.ok a, st) => outcome (f a) st
      | (.error e, st) => (.error e, st) := by
  unfold outcome
  rw [ExceptT.run_bind, StateT.run_bind]
  generalize m.run.run st = r
  obtain ⟨result, st⟩ := r
  cases result <;> rfl

theorem outcome_map (f : α → β) (m : ExceptT ε (StateM σ) α) (st : σ) :
    outcome (f <$> m) st = ((outcome m st).1.map f, (outcome m st).2) := by
  rw [map_eq_pure_bind, outcome_bind]
  cases outcome m st with
  | mk result st => cases result <;> rfl

theorem outcome_adapt (m : ExceptT ε (StateM σ) α) (f : ε → ε') (st : σ) :
    outcome (m.adapt f) st = ((outcome m st).1.mapError f, (outcome m st).2) := by
  unfold outcome ExceptT.adapt
  rw [ExceptT.run_mk, StateT.run_map]
  rfl

theorem outcome_bind_eq_ok {m : ExceptT ε (StateM σ) α} {f : α → ExceptT ε (StateM σ) β}
    {st st' : σ} {b : β} :
    outcome (m >>= f) st = (.ok b, st') ↔
      ∃ a between, outcome m st = (.ok a, between) ∧ outcome (f a) between = (.ok b, st') := by
  rw [outcome_bind]
  cases outcome m st with
  | mk result between => cases result <;> simp [and_assoc]

/-- There is a result for each element of a list. -/
theorem length_of_outcome_mapM {f : α → ExceptT ε (StateM σ) β} {xs : List α} {ys : List β}
    {st st' : σ} (h : outcome (xs.mapM f) st = (.ok ys, st')) : ys.length = xs.length := by
  induction xs generalizing ys st with
  | nil =>
    rw [List.mapM_nil, outcome_pure] at h
    cases h
    rfl
  | cons x xs ih =>
    rw [List.mapM_cons, outcome_bind_eq_ok] at h
    obtain ⟨y, between, -, h⟩ := h
    obtain ⟨rest, last, hrest, h⟩ := outcome_bind_eq_ok.1 h
    cases h
    rw [List.length_cons, List.length_cons, ih hrest]

end DocSite

import Mathlib.Data.List.Basic

/-!
# Results of a whole list

What a function that may have no result makes of a list (`List.mapM` in `Option`, and in `Except`):
every element has a result, or there is none, and then the first failure is the failure of the list.

* `mapM_eq_some_iff` : the results of a list are those of its elements, in their order.
* `mapM_eq_some_map` : they are given by a function that agrees with them element by element.
* `mapM_ok_or_first_error` : all elements have a result, or the first without one is the failure.
* `exists_pairs_of_mapM` : elements with their results.
-/

namespace DocSite

section

variable {α β : Type} {f : α → Option β} {xs : List α} {ys : List β}

theorem mapM_eq_some_iff : xs.mapM f = some ys ↔ xs.map f = ys.map some := by
  induction xs generalizing ys with
  | nil =>
    rw [List.mapM_nil, List.map_nil]
    constructor
    · intro h
      rw [← Option.some.inj h, List.map_nil]
    · intro h
      rw [List.map_eq_nil_iff.1 h.symm]
      rfl
  | cons x xs ih =>
    rw [List.mapM_cons, List.map_cons]
    constructor
    · intro h
      obtain ⟨y, hy, h⟩ := Option.bind_eq_some_iff.1 h
      obtain ⟨rest, hrest, h⟩ := Option.bind_eq_some_iff.1 h
      rw [← Option.some.inj h, List.map_cons, hy, ih.1 hrest]
    · intro h
      obtain ⟨y, rest, rfl, hy, hrest⟩ := List.map_eq_cons_iff.1 h.symm
      rw [← hy, ih.2 hrest.symm]
      rfl

theorem mapM_eq_some_map {g : α → β} (h : ∀ x ∈ xs, f x = some (g x)) :
    xs.mapM f = some (xs.map g) := by
  rw [mapM_eq_some_iff, List.map_map]
  exact List.map_congr_left h

theorem mapM_map_eq_some {γ : Type} {zs : List γ} {g : γ → α} {k : γ → β}
    (h : ∀ z ∈ zs, f (g z) = some (k z)) : (zs.map g).mapM f = some (zs.map k) := by
  rw [mapM_eq_some_iff, List.map_map, List.map_map]
  exact List.map_congr_left h

theorem mapM_map_of_forall {g : β → α} (h : ∀ y, f (g y) = some y) (ys : List β) :
    (ys.map g).mapM f = some ys := by
  rw [mapM_map_eq_some fun y _ => h y, List.map_id']

theorem exists_map_of_mapM [Inhabited β] (h : xs.mapM f = some ys) :
    ∃ g : α → β, (∀ x ∈ xs, f x = some (g x)) ∧ ys = xs.map g := by
  have hmap : xs.map f = ys.map some := mapM_eq_some_iff.1 h
  have hsome : ∀ x ∈ xs, f x = some ((f x).getD default) := by
    intro x hx
    obtain ⟨y, -, hy⟩ := List.mem_map.1 (hmap ▸ List.mem_map_of_mem hx)
    rw [← hy, Option.getD_some]
  refine ⟨fun x => (f x).getD default, hsome, ?_⟩
  exact Option.some.inj (h.symm.trans (mapM_eq_some_map hsome))

theorem flatten_mapM_cons {γ : Type} {f : α → Option (List γ)} {x : α} :
    ((x :: xs).mapM f).map List.flatten =
      (f x).bind fun first => ((xs.mapM f).map List.flatten).map (first ++ ·) := by
  rw [List.mapM_cons]
  cases f x with
  | none => rfl
  | some first => cases xs.mapM f <;> rfl

theorem flatten_mapM_filterMap {γ δ : Type} {f : α → Option (List γ)} {select : α → Option δ}
    {g : δ → Option (List γ)} (h : ∀ x, f x = (select x).elim (some []) g) :
    (xs.mapM f).map List.flatten = ((xs.filterMap select).mapM g).map List.flatten := by
  induction xs with
  | nil => rfl
  | cons x xs ih =>
    rw [flatten_mapM_cons, h, ih]
    cases hx : select x with
    | none =>
      rw [List.filterMap_cons_none hx]
      exact Option.map_id'
    | some y =>
      rw [List.filterMap_cons_some hx, flatten_mapM_cons]
      rfl

theorem flatten_mapM_append {γ : Type} {f : α → Option (List γ)} {xs₁ xs₂ : List α} :
    ((xs₁ ++ xs₂).mapM f).map List.flatten = ((xs₁.mapM f).map List.flatten).bind fun first =>
      ((xs₂.mapM f).map List.flatten).map (first ++ ·) := by
  rw [List.mapM_append]
  cases xs₁.mapM f with
  | none => rfl
  | some first =>
    cases xs₂.mapM f with
    | none => rfl
    | some second => exact congrArg some List.flatten_append

theorem exists_of_mem_mapM {y : β} (h : xs.mapM f = some ys) (hy : y ∈ ys) :
    ∃ x ∈ xs, f x = some y := by
  have hmem : some y ∈ xs.map f := by
    rw [mapM_eq_some_iff.1 h]
    exact List.mem_map_of_mem hy
  exact List.mem_map.1 hmem

end

section

variable {ε α β : Type} {f : α → Except ε β} {xs : List α} {ys : List β}

variable (f xs) in
/-- All elements have a result, and these are the results of the list; or one of them fails while
those before it have results, and its failure is that of the list. -/
theorem mapM_ok_or_first_error :
    (∃ pairs : List (α × β), pairs.map Prod.fst = xs ∧ xs.mapM f = .ok (pairs.map Prod.snd) ∧
        ∀ p ∈ pairs, f p.1 = .ok p.2) ∨
      ∃ before x after error, xs = before ++ x :: after ∧ (∀ z ∈ before, ∃ y, f z = .ok y) ∧
        f x = .error error ∧ xs.mapM f = .error error := by
  induction xs with
  | nil => exact .inl ⟨[], rfl, rfl, by simp⟩
  | cons x xs ih =>
    rw [List.mapM_cons]
    cases hx : f x with
    | error error => exact .inr ⟨[], x, xs, error, rfl, by simp, hx, rfl⟩
    | ok y =>
      rcases ih with ⟨pairs, rfl, hok, hpairs⟩ | ⟨before, z, after, error, rfl, hbefore, hz, herror⟩
      · exact .inl ⟨(x, y) :: pairs, rfl, by rw [hok]; rfl, List.forall_mem_cons.2 ⟨hx, hpairs⟩⟩
      · refine .inr ⟨x :: before, z, after, error, rfl, ?_, hz, by rw [herror]; rfl⟩
        exact List.forall_mem_cons.2 ⟨⟨y, hx⟩, hbefore⟩

/-- What a function that may fail makes of a list, together with what it makes it of. -/
theorem exists_pairs_of_mapM (h : xs.mapM f = .ok ys) :
    ∃ pairs : List (α × β), pairs.map Prod.fst = xs ∧ pairs.map Prod.snd = ys ∧
      ∀ p ∈ pairs, f p.1 = .ok p.2 := by
  rcases mapM_ok_or_first_error f xs with
    ⟨pairs, hfst, hok, hpairs⟩ | ⟨_, _, _, error, -, -, -, herror⟩
  · exact ⟨pairs, hfst, Except.ok.inj (hok.symm.trans h), hpairs⟩
  · rw [herror] at h
    cases h

end

end DocSite

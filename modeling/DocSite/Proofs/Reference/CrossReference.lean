import DocSite.Proofs.Reference.Grammar

/-!
# Cross references

`Location.xrefFrom` writes a reference to a location from another one and leaves out what both
share. Read back from the same place it names the location again exactly if the grammar can express
what is written (`Location.Expressible`): every part that stands in the reference has characters and
no separators, and an empty module is not asked for where one is spelled out or taken over.

* `Location.xrefFrom_eq_render` : a cross reference is the rendering of `Location.spelled`.
* `Location.ofReference?_xrefFrom` : an expressible location is found again.
* `Location.expressible_of_ofReference?` : nothing else is.
-/

namespace DocSite

open Reference

namespace Family

@[simp] theorem ofName?_name (f : Family) : ofName? f.name = some f := by cases f <;> rfl

theorem ofName?_eq_some_iff {name : Text} {f : Family} :
    ofName? name = some f ↔ f.name = name := by
  constructor
  · intro h
    simpa using List.find?_some h
  · rintro rfl
    exact ofName?_name f

theorem name_injective {f g : Family} (h : f.name = g.name) : f = g :=
  Option.some.inj ((ofName?_name f).symm.trans (ofName?_eq_some_iff.2 h.symm))

theorem spellable_name (f : Family) : Spellable f.name := by cases f <;> decide

end Family

namespace Reference

/-- The family that a reference names, where `family` is meant if it names none. -/
def familyIn? (r : Reference) (family : Family) : Option Family :=
  match r.family with
  | some name => Family.ofName? name
  | none => some family

theorem familyIn?_eq_some_iff {r : Reference} {family f : Family} :
    r.familyIn? family = some f ↔ f.name = r.family.getD family.name := by
  unfold familyIn?
  cases r.family with
  | none => rw [Option.getD_none, ← Family.ofName?_eq_some_iff, Family.ofName?_name]
  | some name => exact Family.ofName?_eq_some_iff

theorem resolve?_eq_some_iff {r : Reference} {l context : Location} {family : Family} :
    r.resolve? context family = some l ↔
      r.component.getD context.component = l.component ∧
        r.version.getD context.version = l.version ∧
        r.module.getD context.module = l.module ∧
        r.familyIn? family = some l.family ∧ r.relative = l.relative := by
  unfold resolve? familyIn?
  cases l
  cases r.family with
  | none => simp only [Option.some.injEq, Location.mk.injEq]
  | some name =>
    simp only [Option.map_eq_some_iff, Location.mk.injEq]
    constructor
    · rintro ⟨f, hf, hc, hv, hm, rfl, hr⟩
      exact ⟨hc, hv, hm, hf, hr⟩
    · rintro ⟨hc, hv, hm, hf, hr⟩
      exact ⟨_, hf, hc, hv, hm, rfl, hr⟩

theorem eq_some_of_getD_eq {part : Option Text} {value other : Text}
    (h : part.getD other = value) (hne : value ≠ other) : part = some value := by
  rcases Option.getD_eq_iff.1 h with hpart | ⟨-, heq⟩
  · exact hpart
  · exact absurd heq.symm hne

theorem Spells.exists_version {s : Text} {r : Reference} (h : Spells s r) (hs : '@' ∈ s) :
    ∃ v, r.version = some v := by
  obtain ⟨hr, place, hplace, rfl⟩ := h
  cases hv : r.version with
  | some v => exact ⟨v, rfl⟩
  | none =>
    rw [hv, List.append_assoc, List.append_assoc] at hs
    exact absurd hs (hr.at_not_mem hplace)

theorem Spells.module_eq_nil {v c m family relative : Text} {r : Reference}
    (h : Spells (v ++ '@' :: (c ++ ':' :: (m ++ ':' :: (family ++ relative)))) r)
    (hv : r.version = some v) (hc : r.component = some c) (hm : r.module = none)
    (hr : r.relative = relative) : m = [] := by
  obtain ⟨hwf, place, hplace, htext⟩ := h
  rw [hc, hm] at hplace
  cases hplace
  rw [hv, hr] at htext
  -- what both texts start and end with goes
  have hsuffix :
      (m ++ ':' :: family) ++ relative = (':' :: renderPart '$' r.family) ++ relative := by
    simpa only [renderPart, List.append_assoc, List.cons_append, List.nil_append,
      List.append_cancel_left_eq, List.cons.injEq, true_and] using htext
  have hrest : m ++ ':' :: family = ':' :: renderPart '$' r.family :=
    List.append_cancel_right hsuffix
  cases m with
  | nil => rfl
  | cons x m =>
    -- the colon after `m` would have to stand in the family
    have hcolon : ':' ∉ renderPart '$' r.family := not_mem_renderPart hwf.family rfl (by decide)
    rw [List.cons_append] at hrest
    rw [← (List.cons.inj hrest).2] at hcolon
    exact absurd (by simp) hcolon

end Reference

namespace Location

/-! ### What a cross reference spells out -/

/-- The parts that a cross reference spells out. -/
def spelled (l context : Location) : Reference where
  version :=
    if l.component ≠ context.component ∨ l.version ≠ context.version then some l.version else none
  component := if l.component ≠ context.component then some l.component else none
  module :=
    if l.component ≠ context.component then if l.module = [] then none else some l.module
    else if l.module ≠ context.module then some l.module else none
  family := if l.family ≠ .page then some l.family.name else none
  relative := l.relative

theorem xrefFrom_eq_render (l context : Location) :
    l.xrefFrom context = (l.spelled context).render := by
  unfold xrefFrom spelled render
  by_cases hc : l.component = context.component
  · simp only [hc, ne_eq, not_true_eq_false, false_or, if_false]
    congr 2
    · congr 1
      · split_ifs <;> rfl
      · split_ifs <;> rfl
    · split_ifs <;> rfl
  · simp only [hc, ne_eq, not_false_eq_true, true_or, if_true]
    congr 2
    · congr 1
      split_ifs with hm
      · simp [hm, renderPlace]
      · rfl
    · split_ifs <;> rfl

/-- What the grammar needs of a location `l` so that a file at `context` can refer to it. -/
structure Expressible (l context : Location) : Prop where
  relative : Spellable l.relative
  /-- A version that is spelled out. -/
  version : l.component ≠ context.component ∨ l.version ≠ context.version → Spellable l.version
  /-- A component that is spelled out. -/
  component : l.component ≠ context.component → Spellable l.component
  /-- The module after a component: an empty one is taken over from `context`. -/
  farModule : l.component ≠ context.component →
    Plain l.module ∧ (l.module ≠ [] ∨ context.module = [])
  /-- A module that is spelled out without a component. -/
  nearModule : l.component = context.component → l.module ≠ context.module → Spellable l.module

theorem Expressible.wellFormed {l context : Location} (h : l.Expressible context) :
    (l.spelled context).WellFormed := by
  unfold spelled
  refine ⟨?_, ?_, ?_, ?_, h.relative⟩ <;> dsimp only <;> intro p hp
  · split_ifs at hp with hv
    · exact Option.mem_some.1 hp ▸ h.version hv
    · cases hp
  · split_ifs at hp with hc
    · exact Option.mem_some.1 hp ▸ h.component hc
    · cases hp
  · split_ifs at hp with hc hm hm
    · cases hp
    · exact Option.mem_some.1 hp ▸ ⟨hm, (h.farModule hc).1⟩
    · exact Option.mem_some.1 hp ▸ h.nearModule (not_not.1 hc) hm
    · cases hp
  · split_ifs at hp
    · exact Option.mem_some.1 hp ▸ l.family.spellable_name
    · cases hp

/-- Read from the same place, the parts name the location, unless an empty module stands for the
module of `context`. -/
theorem resolve?_spelled {l context : Location}
    (h : l.component ≠ context.component → l.module ≠ [] ∨ context.module = []) :
    (l.spelled context).resolve? context .page = some l := by
  rw [resolve?_eq_some_iff]
  refine ⟨?_, ?_, ?_, ?_, rfl⟩
  · by_cases hc : l.component = context.component <;> simp [spelled, hc]
  · by_cases hv : l.component ≠ context.component ∨ l.version ≠ context.version
    · simp [spelled, hv]
    · simp only [ne_eq, not_or, not_not] at hv
      simp [spelled, hv]
  · by_cases hc : l.component = context.component
    · by_cases hm : l.module = context.module <;> simp [spelled, hc, hm]
    · by_cases hm : l.module = []
      · simpa [spelled, hc, hm] using (h hc).resolve_left (not_not.2 hm)
      · simp [spelled, hc, hm]
  · by_cases hf : l.family = .page <;> simp [spelled, familyIn?, hf]

/-! ### Reading a cross reference back -/

theorem ofReference?_xrefFrom {l context : Location} (h : l.Expressible context) :
    ofReference? (l.xrefFrom context) context .page = some l := by
  rw [ofReference?, xrefFrom_eq_render, parse?_render_iff.2 h.wellFormed]
  exact resolve?_spelled fun hc => (h.farModule hc).2

theorem at_mem_xrefFrom {l context : Location}
    (h : l.component ≠ context.component ∨ l.version ≠ context.version) :
    '@' ∈ l.xrefFrom context := by
  simp [xrefFrom, h]

theorem xrefFrom_of_component_ne {l context : Location} (h : l.component ≠ context.component) :
    l.xrefFrom context = l.version ++ '@' :: (l.component ++ ':' :: (l.module ++ ':' ::
      ((if l.family ≠ .page then l.family.name ++ ['$'] else []) ++ l.relative))) := by
  simp [xrefFrom, h]

theorem expressible_of_ofReference? {l context : Location}
    (h : ofReference? (l.xrefFrom context) context .page = some l) : l.Expressible context := by
  obtain ⟨r, hparse, hresolve⟩ := Option.bind_eq_some_iff.1 h
  have hspells := parse?_eq_some_iff.1 hparse
  have hr := hspells.wellFormed
  obtain ⟨hc, hv, hm, -, hrel⟩ := resolve?_eq_some_iff.1 hresolve
  -- a version stands there even where that of `context` would do
  have hversion (hne : l.component ≠ context.component ∨ l.version ≠ context.version) :
      r.version = some l.version := by
    obtain ⟨v, hsome⟩ := hspells.exists_version (at_mem_xrefFrom hne)
    rw [hsome] at hv ⊢
    exact congrArg some hv
  have hcomponent (hne : l.component ≠ context.component) : r.component = some l.component :=
    eq_some_of_getD_eq hc hne
  refine ⟨hrel ▸ hr.relative, fun hne => hr.version _ (hversion hne),
    fun hne => hr.component _ (hcomponent hne), fun hne => ?_,
    fun _ hne => hr.module _ (eq_some_of_getD_eq hm hne)⟩
  -- after a component only an empty module is left out
  rcases Option.getD_eq_iff.1 hm with hsome | ⟨hnone, heq⟩
  · exact ⟨(hr.module _ hsome).2, .inl (hr.module _ hsome).1⟩
  · rw [xrefFrom_of_component_ne hne] at hspells
    have hnil := hspells.module_eq_nil (hversion (.inl hne)) (hcomponent hne) hnone hrel
    exact ⟨by rw [hnil]; decide, .inr (heq.trans hnil)⟩

/-- **A cross reference leads back to its location exactly where the grammar can express it.** In
every other case the reference is refused, or names an unknown family and so no location, or names
another location. -/
theorem xrefFrom_roundtrip_iff (l context : Location) :
    (ofReference? (l.xrefFrom context) context .page = some l ↔ l.Expressible context) ∧
      (l.Expressible context ∨ parse? (l.xrefFrom context) = none ∨
        (∃ r, parse? (l.xrefFrom context) = some r ∧ r.resolve? context .page = none) ∨
        ∃ k, k ≠ l ∧ ofReference? (l.xrefFrom context) context .page = some k) := by
  refine ⟨⟨expressible_of_ofReference?, ofReference?_xrefFrom⟩, ?_⟩
  cases hparse : parse? (l.xrefFrom context) with
  | none => exact .inr (.inl rfl)
  | some r =>
    cases hresolve : r.resolve? context .page with
    | none => exact .inr (.inr (.inl ⟨r, rfl, hresolve⟩))
    | some k =>
      have hk : ofReference? (l.xrefFrom context) context .page = some k := by
        rw [ofReference?, hparse, Option.bind_some, hresolve]
      by_cases heq : k = l
      · exact .inl (expressible_of_ofReference? (heq ▸ hk))
      · exact .inr (.inr (.inr ⟨k, heq, hk⟩))

/-- An empty module cannot be spelled out, and that the version differs too does not help:
`2.0@:a.adoc` names the module of the file that holds it. And a reference that is read but names an
unknown family, such as `x$y`, names no location at all. -/
theorem xrefFrom_loses_empty_module :
    let l : Location := ⟨"docs".toList, "2.0".toList, [], .page, "a.adoc".toList⟩
    let context : Location :=
      ⟨"docs".toList, "1.0".toList, "api".toList, .page, "index.adoc".toList⟩
    let odd : Location := { context with relative := "x$y".toList }
    Spellable l.relative ∧
      (l.component ≠ context.component ∨ l.version ≠ context.version → Spellable l.version) ∧
      (l.component ≠ context.component → Spellable l.component ∧ Plain l.module ∧
        (l.module ≠ [] ∨ context.module = [])) ∧
      (l.component = context.component ∧ l.version = context.version ∧
        l.module ≠ context.module → Spellable l.module) ∧
      ofReference? (l.xrefFrom context) context .page ≠ some l ∧
      parse? (odd.xrefFrom context) ≠ none ∧
      ofReference? (odd.xrefFrom context) context .page = none := by
  decide

end Location

end DocSite

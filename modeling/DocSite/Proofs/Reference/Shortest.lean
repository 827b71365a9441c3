import DocSite.Proofs.Reference.CrossReference

/-!
# Cross references are shortest

Within a component a cross reference spells out what differs from the place of the page, and
nothing else. Whatever text names the location from there has to spell these parts out too, so that
it is at least as long.

* `Reference.Covers` : a reference that spells out all that another one does.
* `Reference.Covers.length_render_le` : every text that spells it is at least as long as the other.
* `Location.covers_spelled` : a reference to a location covers what a cross reference spells out.
* `Location.xrefFrom_is_shortest` : no text that names the location is shorter.

To another component there can be a shorter way: a cross reference then spells out the version,
whether or not it is that of the page.
-/

namespace DocSite

namespace Reference

/-! ### What another reference spells out -/

/-- Each part that `q` spells out is spelled out by `r` too, and both have one path. -/
structure Covers (r q : Reference) : Prop where
  version : ∀ p ∈ q.version, p ∈ r.version
  component : ∀ p ∈ q.component, p ∈ r.component
  module : ∀ p ∈ q.module, p ∈ r.module
  family : ∀ p ∈ q.family, p ∈ r.family
  relative : q.relative = r.relative

variable {r q : Reference}

theorem Covers.wellFormed (h : r.Covers q) (hr : r.WellFormed) : q.WellFormed where
  version p hp := hr.version p (h.version p hp)
  component p hp := hr.component p (h.component p hp)
  module p hp := hr.module p (h.module p hp)
  family p hp := hr.family p (h.family p hp)
  relative := h.relative ▸ hr.relative

theorem length_renderPart_le {part part' : Option Text} (h : ∀ p ∈ part, p ∈ part') (sep : Char) :
    (renderPart sep part).length ≤ (renderPart sep part').length := by
  cases part with
  | none => exact Nat.zero_le _
  | some p => rw [Option.mem_def.1 (h p rfl)]

theorem Place.length_renderPlace_le {c m c' m' : Option Text} {place : Text} (h : Place c' m' place)
    (hc : ∀ p ∈ c, p ∈ c') (hm : ∀ p ∈ m, p ∈ m') :
    (renderPlace c m).length ≤ place.length := by
  cases c with
  | none =>
    cases m with
    | none => exact Nat.zero_le _
    | some m =>
      obtain rfl : m' = some m := hm m rfl
      cases h with
      | both c m =>
        simp [renderPlace]
        omega
      | module m => exact Nat.le_refl _
  | some c =>
    obtain rfl : c' = some c := hc c rfl
    cases m with
    | none =>
      cases h with
      | both c m => simp [renderPlace]
      | component c => exact Nat.le_refl _
    | some m =>
      obtain rfl : m' = some m := hm m rfl
      cases h with
      | both c m => exact Nat.le_refl _

/-- **A text that spells out more is no shorter.** -/
theorem Covers.length_render_le {s : Text} (h : r.Covers q) (hs : Spells s r) :
    q.render.length ≤ s.length := by
  obtain ⟨place, hplace, rfl⟩ := hs.text
  simp only [render, List.length_append, h.relative]
  exact Nat.add_le_add_right (Nat.add_le_add (Nat.add_le_add (length_renderPart_le h.version _)
    (hplace.length_renderPlace_le h.component h.module)) (length_renderPart_le h.family _)) _

end Reference

namespace Location

open Reference

variable {l context : Location}

theorem mem_of_mem_ite {p : Prop} [Decidable p] {part : Option Text} {value : Text}
    (h : p → part = some value) : ∀ v ∈ if p then some value else none, v ∈ part := by
  intro v hv
  obtain ⟨hp, hv⟩ := Option.mem_ite_none_right.1 hv
  exact (h hp).trans hv

/-- **A reference to a location of the same component covers what a cross reference spells out.**
Each part that the cross reference spells out names something else than what stands in for it. -/
theorem covers_spelled (hsame : l.component = context.component) {r : Reference}
    (h : r.resolve? context .page = some l) : r.Covers (l.spelled context) := by
  obtain ⟨-, hversion, hmodule, hfamily, hrelative⟩ := resolve?_eq_some_iff.1 h
  have hname : r.family.getD Family.page.name = l.family.name :=
    (familyIn?_eq_some_iff.1 hfamily).symm
  simp only [spelled, hsame, ne_eq, not_true_eq_false, false_or, if_false]
  refine ⟨mem_of_mem_ite fun hne => eq_some_of_getD_eq hversion hne,
    fun v hv => absurd hv (Option.not_mem_none v),
    mem_of_mem_ite fun hne => eq_some_of_getD_eq hmodule hne,
    mem_of_mem_ite fun hne => eq_some_of_getD_eq hname fun heq => hne ?_, hrelative.symm⟩
  exact Family.name_injective heq

/-- **Within a component a cross reference is a shortest one.** If any text at all names a location
from a page of the same component, the cross reference names it, and has no more characters than
that text. -/
theorem xrefFrom_is_shortest (hsame : l.component = context.component) {s : Text}
    (h : ofReference? s context .page = some l) :
    ofReference? (l.xrefFrom context) context .page = some l ∧
      (l.xrefFrom context).length ≤ s.length := by
  obtain ⟨r, hparse, hresolve⟩ := Option.bind_eq_some_iff.1 h
  have hspells : Spells s r := parse?_eq_some_iff.1 hparse
  have hcovers : r.Covers (l.spelled context) := covers_spelled hsame hresolve
  rw [xrefFrom_eq_render]
  refine ⟨?_, hcovers.length_render_le hspells⟩
  rw [ofReference?, parse?_render_iff.2 (hcovers.wellFormed hspells.wellFormed)]
  exact resolve?_spelled fun hne => absurd hsame hne

/-- An image of another module, with a version and a component that need not be spelled out. -/
theorem xrefFrom_is_shortest_image :
    let l : Location :=
      ⟨"docs".toList, "1.0".toList, "api".toList, .image, "a.png".toList⟩
    let context : Location :=
      ⟨"docs".toList, "1.0".toList, "ROOT".toList, .page, "index.adoc".toList⟩
    l.component = context.component ∧
      ofReference? "1.0@docs:api:image$a.png".toList context .page = some l ∧
      ofReference? (l.xrefFrom context) context .page = some l ∧
      (l.xrefFrom context).length ≤ "1.0@docs:api:image$a.png".toList.length := by
  intro l context
  have hnames : ofReference? "1.0@docs:api:image$a.png".toList context .page = some l := by decide
  have hsame : l.component = context.component := rfl
  exact ⟨hsame, hnames, xrefFrom_is_shortest hsame hnames⟩

-- To a component of the same version a shorter reference leads without it.
example :
    let l : Location := ⟨"core".toList, "1.0".toList, "api".toList, .page, "a.adoc".toList⟩
    let context : Location :=
      ⟨"docs".toList, "1.0".toList, "ROOT".toList, .page, "index.adoc".toList⟩
    ofReference? "core:api:a.adoc".toList context .page = some l ∧
      "core:api:a.adoc".toList.length < (l.xrefFrom context).length := by decide

end Location

end DocSite

import DocSite.Proofs.Catalog.Lookup
import Mathlib.Data.List.Find

/-!
# Ids and references

The id of a location writes out all of its parts, so that it is a reference too, one that takes
nothing over from the file that holds it. Where the parts can be spelled out, the reference names
the location again from any place (`Location.ofReference?_id`), and different locations have
different ids (`Location.id_injective`). So looking for a file by its id and resolving the id find
the same file.

* `Catalog.ofId?_id` : the file with the id of a location is the one at the location.
* `Catalog.ids_and_references_agree` : what an id finds, it names as a reference from anywhere.
-/

namespace DocSite

open Reference

namespace Location

variable {l k : Location}

/-- The parts of a location, all of them spelled out. -/
def full (l : Location) : Reference where
  version := some l.version
  component := some l.component
  module := some l.module
  family := some l.family.name
  relative := l.relative

theorem id_eq_render (l : Location) : l.id = l.full.render := by
  simp [id, full, render, renderPart, renderPlace]

theorem Addressable.wellFormed (h : l.Addressable) : l.full.WellFormed where
  version := by simpa [full] using h.version
  component := by simpa [full] using h.component
  module := by simpa [full] using h.module
  family := by simpa [full] using l.family.spellable_name
  relative := h.relative

theorem resolve?_full (l context : Location) (family : Family) :
    l.full.resolve? context family = some l := by
  simp [resolve?_eq_some_iff, full, familyIn?]

/-- **An id is a reference to its location** from any place. -/
theorem ofReference?_id (h : l.Addressable) (context : Location) (family : Family) :
    ofReference? l.id context family = some l := by
  rw [ofReference?, id_eq_render, parse?_render_iff.2 h.wellFormed]
  exact resolve?_full l context family

theorem id_injective (hl : l.Addressable) (hk : k.Addressable) (h : l.id = k.id) : l = k := by
  have hread := ofReference?_id hl l .page
  rw [h, ofReference?_id hk] at hread
  exact (Option.some.inj hread).symm

end Location

namespace Catalog

variable {c : Catalog} {e f : Entry} {l : Location}

/-- The file with the id of a location is the one at the location. -/
theorem ofId?_id (hc : ∀ e ∈ c.files, e.location.Addressable) (hl : l.Addressable) :
    c.ofId? l.id = c.at? l := by
  unfold ofId? at?
  refine List.find?_congr fun e he => ?_
  have hiff : e.location.id = l.id ↔ e.location = l :=
    ⟨Location.id_injective (hc e he) hl, congrArg Location.id⟩
  exact decide_eq_decide.2 hiff

theorem mem_of_ofId? {id : Text} (h : c.ofId? id = some f) : f ∈ c.files ∧ f.location.id = id :=
  ⟨List.mem_of_find?_eq_some h, by simpa using List.find?_some h⟩

theorem exists_first (he : e ∈ c.files) :
    ∃ before f after, c.files = before ++ f :: after ∧ f.location = e.location ∧
      (∀ k ∈ before, k.location ≠ e.location) ∧ c.at? e.location = some f := by
  cases hat : c.at? e.location with
  | none => exact absurd (List.find?_eq_none.1 hat e he) (by simp)
  | some f =>
    obtain ⟨hlocation, before, after, hfiles, hbefore⟩ := List.find?_eq_some_iff_append.1 hat
    exact ⟨before, f, after, hfiles, by simpa using hlocation, by simpa using hbefore, rfl⟩

/-- **Ids and references agree.** Where the locations of all files can be spelled out, the file that
an id finds is the one that it names as a reference, from any place and whatever family is meant. By
its id each file finds the first file at its location, and files have the same id only if they have
the same location. -/
theorem ids_and_references_agree (hc : ∀ e ∈ c.files, e.location.Addressable) :
    (∀ id f, c.ofId? id = some f →
        ∀ context family, c.resolve? id context family = some f) ∧
      (∀ e ∈ c.files, ∃ before f after, c.files = before ++ f :: after ∧
        f.location = e.location ∧ (∀ k ∈ before, k.location ≠ e.location) ∧
        c.ofId? e.location.id = some f) ∧
      ∀ e ∈ c.files, ∀ f ∈ c.files, e.location.id = f.location.id → e.location = f.location := by
  refine ⟨fun id f h context family => ?_, fun e he => ?_, fun e he f hf => ?_⟩
  · obtain ⟨hf, rfl⟩ := mem_of_ofId? h
    have haddr := hc f hf
    rw [resolve?, Location.ofReference?_id haddr, Option.bind_some, ← ofId?_id hc haddr, h]
  · rw [ofId?_id hc (hc e he)]
    exact exists_first he
  · exact Location.id_injective (hc e he) (hc f hf)

/-- Two pages at one location, and an attachment of the same name in another module. -/
def doubledCatalog : Catalog where
  files :=
    let page : Location :=
      ⟨"docs".toList, "1.0".toList, "ROOT".toList, .page, "a.adoc".toList⟩
    [{ source := { toLocation := page }, contents := "first".toList },
     { source := { toLocation := page }, contents := "second".toList },
     { source := { toLocation := { page with module := "api".toList, family := .attachment } } }]

/-- The first of the two pages is found by their id, and named by it from another product where
images are meant. -/
theorem ids_and_references_agree_doubled :
    (∀ e ∈ doubledCatalog.files, e.location.Addressable) ∧
      ∃ f, f.contents = "first".toList ∧
        doubledCatalog.ofId? "1.0@docs:ROOT:page$a.adoc".toList = some f ∧
        doubledCatalog.resolve? "1.0@docs:ROOT:page$a.adoc".toList
          ⟨"java".toList, "2.0".toList, "api".toList, .nav, "b.adoc".toList⟩ .image = some f := by
  have hc : ∀ e ∈ doubledCatalog.files, e.location.Addressable := by decide +kernel
  obtain ⟨f, hcontents, hfound⟩ : ∃ f, f.contents = "first".toList ∧
      doubledCatalog.ofId? "1.0@docs:ROOT:page$a.adoc".toList = some f := ⟨_, rfl, rfl⟩
  exact ⟨hc, f, hcontents, hfound, (ids_and_references_agree hc).1 _ f hfound _ _⟩

end Catalog

end DocSite

import DocSite.Catalog.Glob
import DocSite.Proofs.Reference.CrossReference
import Mathlib.Data.List.Nodup

/-!
# Finding files again

The catalog finds the first file at a location. Where no two files share a location
(`Catalog.Distinct`), that is the file itself, and a file whose location can be spelled out in full
(`Location.Addressable`) is found by its cross reference from any other place.

* `Catalog.at?_location` : a file is the one at its location.
* `Catalog.resolvePage?_xrefFrom` : a file is the one that its cross reference names.
-/

namespace DocSite

open Reference

/-- Every part of a location that a reference may spell out can be. -/
structure Location.Addressable (l : Location) : Prop where
  component : Spellable l.component
  version : Spellable l.version
  module : Spellable l.module
  relative : Spellable l.relative

instance (l : Location) : Decidable l.Addressable :=
  decidable_of_iff
    (Spellable l.component ∧ Spellable l.version ∧ Spellable l.module ∧ Spellable l.relative)
    ⟨fun ⟨hc, hv, hm, hr⟩ => ⟨hc, hv, hm, hr⟩,
      fun h => ⟨h.component, h.version, h.module, h.relative⟩⟩

theorem Location.Addressable.expressible {l : Location} (h : l.Addressable) (context : Location) :
    l.Expressible context where
  relative := h.relative
  version _ := h.version
  component _ := h.component
  farModule _ := ⟨h.module.2, .inl h.module.1⟩
  nearModule _ _ := h.module

namespace Catalog

variable {c : Catalog} {e : Entry}

variable (c) in
/-- No two files share a location. -/
def Distinct : Prop := (c.files.map Entry.location).Nodup

instance : Decidable c.Distinct := inferInstanceAs (Decidable (List.Nodup _))

theorem mem_files_of_mem_select {glob : Text} {context : Location} (h : e ∈ c.select glob context) :
    e ∈ c.files := by
  unfold select at h
  split at h
  · exact List.mem_of_mem_filter h
  · cases h

theorem at?_location (hc : c.Distinct) (he : e ∈ c.files) : c.at? e.location = some e := by
  unfold at?
  cases hfind : c.files.find? fun f => f.location = e.location with
  | none => exact absurd (List.find?_eq_none.1 hfind e he) (by simp)
  | some f =>
    have hloc : f.location = e.location := by simpa using List.find?_some hfind
    rw [List.inj_on_of_nodup_map hc (List.mem_of_find?_eq_some hfind) he hloc]

theorem resolvePage?_xrefFrom (hc : c.Distinct) (he : e ∈ c.files)
    (haddr : e.location.Addressable) (context : Location) :
    c.resolvePage? (e.location.xrefFrom context) context = some e := by
  rw [resolvePage?, resolve?, Location.ofReference?_xrefFrom (haddr.expressible context)]
  exact at?_location hc he

end Catalog

end DocSite

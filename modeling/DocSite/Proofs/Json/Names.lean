import DocSite.Json.Raw
import DocSite.Proofs.Json.Nodes
import DocSite.Proofs.Table
import DocSite.Proofs.Traversal

/-!
# The names of an object are distinct

An object is read into a table, which keeps one row to a name. So no object in a value that is read
from a text repeats a name (`Json.Distinct`), whatever the text repeats.

* `Json.distinct_of_read?` : the values that are read have distinct names.
-/

namespace DocSite

namespace Json

/-- No object in the value repeats a name. -/
def Distinct (v : Json) : Prop :=
  ∀ fields : Table Json, object fields ∈ v.nodes → (fields.map Prod.fst).Nodup

theorem distinct_iff {v : Json} :
    v.Distinct ↔ ∀ w ∈ v.nodes, ((w.fields?.getD []).map Prod.fst).Nodup := by
  constructor
  · intro h w hw
    cases w with
    | object fields => exact h fields hw
    | _ => exact List.Pairwise.nil
  · intro h fields hfields
    exact h _ hfields

instance : DecidablePred Distinct := fun _ => decidable_of_iff _ distinct_iff.symm

theorem distinct_array {items : List Json} (h : ∀ v ∈ items, v.Distinct) :
    (array items).Distinct := by
  intro fields hfields
  rcases mem_nodes_array.1 hfields with heq | ⟨v, hv, hmem⟩
  · cases heq
  · exact h v hv fields hmem

theorem distinct_object {fields : Table Json} (hnames : (fields.map Prod.fst).Nodup)
    (h : ∀ f ∈ fields, f.2.Distinct) : (object fields).Distinct := by
  intro inner hinner
  rcases mem_nodes_object.1 hinner with heq | ⟨f, hf, hmem⟩
  · cases heq
    exact hnames
  · exact h f hf inner hmem

theorem distinct_of_nodes_eq {v : Json} (h : v.nodes = [v]) (hv : v.fields? = none) :
    v.Distinct := by
  intro fields hfields
  rw [h, List.mem_singleton] at hfields
  rw [← hfields] at hv
  cases hv

theorem distinct_ofNumeral? {n : Numeral} {v : Json} (h : ofNumeral? n = some v) :
    v.Distinct := by
  unfold ofNumeral? at h
  split at h
  · obtain rfl := Option.some.inj h
    exact distinct_of_nodes_eq rfl rfl
  · split_ifs at h
    obtain rfl := Option.some.inj h
    exact distinct_of_nodes_eq rfl rfl

theorem distinct_toJsonWithin? {depth : Nat} {r : Raw} {v : Json}
    (h : r.toJsonWithin? depth = some v) : v.Distinct := by
  induction depth using Nat.strongRecOn generalizing r v with
  | ind depth ih =>
    cases r with
    | null | bool =>
      rw [Raw.toJsonWithin?] at h
      exact Option.some.inj h ▸ distinct_of_nodes_eq rfl rfl
    | number n =>
      rw [Raw.toJsonWithin?] at h
      exact distinct_ofNumeral? h
    | string s =>
      rw [Raw.toJsonWithin?] at h
      obtain ⟨s, -, rfl⟩ := Option.map_eq_some_iff.1 h
      exact distinct_of_nodes_eq rfl rfl
    | array items =>
      cases depth with
      | zero => cases h
      | succ depth =>
        obtain ⟨parts, hparts, rfl⟩ := Option.map_eq_some_iff.1 h
        refine distinct_array fun part hpart => ?_
        obtain ⟨item, -, hitem⟩ := exists_of_mem_mapM hparts hpart
        exact ih depth (Nat.lt_succ_self _) hitem
    | object fields =>
      cases depth with
      | zero => cases h
      | succ depth =>
        obtain ⟨rows, hrows, h⟩ := Option.bind_eq_some_iff.1 h
        obtain rfl := Option.some.inj h
        refine distinct_object (Table.ascending_ofList rows).nodup fun row hrow => ?_
        obtain ⟨field, -, hfield⟩ := exists_of_mem_mapM hrows (Table.mem_of_mem_ofList hrow)
        obtain ⟨name, -, hfield⟩ := Option.bind_eq_some_iff.1 hfield
        obtain ⟨value, hvalue, hfield⟩ := Option.bind_eq_some_iff.1 hfield
        obtain rfl := Option.some.inj hfield
        exact ih depth (Nat.lt_succ_self _) hvalue

/-- **The values that are read have distinct names.** -/
theorem distinct_of_read? {s : Text} {v : Json} (h : read? s = some v) : v.Distinct := by
  obtain ⟨r, -, hr⟩ := Option.bind_eq_some_iff.1 h
  exact distinct_toJsonWithin? hr

end Json

end DocSite

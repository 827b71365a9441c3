import DocSite.Catalog.Snapshot
import DocSite.PageIndex
import DocSite.Proofs.Json.Values
import DocSite.Proofs.Reference.CrossReference
import DocSite.Proofs.Traversal
import Mathlib.Algebra.Ring.Int.Defs

/-!
# Records are read back

A record is written as an object with one field for each of its values, and fields without a value
are left out. The reader looks the fields up by their names, and what is left out is missing
(`Json.record?_present`). So every record is read back as itself.

* `Json.present` : the fields that have a value.
* `Entry.ofRaw?_toJson`, `Component.ofRaw?_toJson` : the records of a catalog.
* `Page.ofRaw?_toJson` : pages, whose positions fit 64 bits.
-/

namespace DocSite

namespace Json

/-! ### Fields that may be left out -/

/-- The fields that have a value. -/
def present (rows : List (Text × Option Json)) : Table Json :=
  rows.filterMap fun (name, value?) => value?.map (name, ·)

theorem present_cons (row : Text × Option Json) (rows : List (Text × Option Json)) :
    present (row :: rows) = (row.2.map (row.1, ·)).toList ++ present rows := by
  obtain ⟨name, value?⟩ := row
  cases value? <;> rfl

theorem present_append (rows rows' : List (Text × Option Json)) :
    present (rows ++ rows') = present rows ++ present rows' := List.filterMap_append

theorem filter_present_of_notMem {rows : List (Text × Option Json)} {name : Text}
    (h : name ∉ rows.map Prod.fst) : (present rows).filter (·.1 = name) = [] := by
  rw [List.filter_eq_nil_iff]
  intro field hfield
  obtain ⟨row, hrow, hfield⟩ := List.mem_filterMap.1 hfield
  obtain ⟨v, -, rfl⟩ := Option.map_eq_some_iff.1 hfield
  rw [decide_eq_true_eq]
  rintro rfl
  exact h (List.mem_map_of_mem hrow)

theorem filter_present {rows : List (Text × Option Json)} {row : Text × Option Json}
    (hnodup : (rows.map Prod.fst).Nodup) (hrow : row ∈ rows) :
    (present rows).filter (·.1 = row.1) = (row.2.map (row.1, ·)).toList := by
  obtain ⟨before, after, rfl⟩ := List.append_of_mem hrow
  rw [List.map_append, List.map_cons, List.nodup_append, List.nodup_cons] at hnodup
  obtain ⟨-, ⟨hafter, -⟩, hdisjoint⟩ := hnodup
  have hbefore : row.1 ∉ before.map Prod.fst := fun hmem =>
    hdisjoint _ hmem _ List.mem_cons_self rfl
  have hself : (row.2.map (row.1, ·)).toList.filter (·.1 = row.1) =
      (row.2.map (row.1, ·)).toList := by
    cases row.2 <;> simp
  rw [present_append, present_cons, List.filter_append, List.filter_append,
    filter_present_of_notMem hbefore, filter_present_of_notMem hafter, hself, List.nil_append,
    List.append_nil]

/-- **A record is selected back**: fields that were left out are missing. -/
theorem record?_present {rows : List (Text × Option Json)} (h : (rows.map Prod.fst).Nodup) :
    Raw.record? (rows.map Prod.fst) (object (present rows)).toRaw =
      some (rows.map fun row => row.2.map toRaw) := by
  have hnames : (toRawFields (present rows)).all (·.1.isSome) = true := by
    simp [toRawFields_eq]
  have hselect (row : Text × Option Json) (hrow : row ∈ rows) :
      (toRawFields (present rows)).filter (·.1 = some row.1) =
        (row.2.map fun v => (some row.1, v.toRaw)).toList := by
    have hsame : ((fun field : Option Text × Raw => decide (field.1 = some row.1)) ∘
        fun f : Text × Json => (some f.1, f.2.toRaw)) = fun f => decide (f.1 = row.1) := by
      funext f
      simp
    rw [toRawFields_eq, List.filter_map, hsame, filter_present h hrow]
    cases row.2 <;> rfl
  rw [toRaw, Raw.record?, Raw.select?, if_pos hnames]
  refine mapM_map_eq_some fun row hrow => ?_
  rw [hselect row hrow]
  cases row.2 <;> rfl

theorem record?_of_eq (names : List Text) {v : Json} {rows : List (Text × Option Json)}
    (hv : v = object (present rows)) (hnames : rows.map Prod.fst = names) (hnodup : names.Nodup) :
    v.toRaw.record? names = some (rows.map fun row => row.2.map toRaw) := by
  subst hv hnames
  exact record?_present hnodup

/-! ### Values of fields -/

variable {α : Type} {write : α → Json} {read : Raw → Option α}

theorem text?_toRaw (s : Text) : (string s).toRaw.text? = some s := rfl

/-- A field that may be missing is read back, unless its value is written as null. -/
theorem optional?_toRaw (h : ∀ a, read (write a).toRaw = some a)
    (hnull : ∀ a, (write a).toRaw ≠ .null) (a? : Option α) :
    Raw.optional? read ((a?.map write).map toRaw) = some a? := by
  cases a? with
  | none => rfl
  | some a =>
    rw [Option.map_some, Option.map_some, Raw.optional?, h a]
    · rfl
    · exact hnull a

theorem exists_of_optional? {r? : Option Raw} {a : α}
    (h : Raw.optional? read r? = some (some a)) : ∃ r, read r = some a := by
  unfold Raw.optional? at h
  split at h
  · cases h
  · cases h
  · rename_i r _
    obtain ⟨b, hb, hab⟩ := Option.map_eq_some_iff.1 h
    exact ⟨r, hb.trans hab⟩

theorem optional?_text (s? : Option Text) :
    Raw.optional? Raw.text? ((s?.map string).map toRaw) = some s? :=
  optional?_toRaw text?_toRaw (fun _ => nofun) s?

theorem list?_toRaw (h : ∀ a, read (write a).toRaw = some a) (as : List α) :
    Raw.list? read (array (as.map write)).toRaw = some as := by
  rw [toRaw, toRawItems_eq, List.map_map]
  exact mapM_map_of_forall h as

end Json

open Json

/-! ### Catalogs -/

theorem Family.ofRaw?_toRaw (f : Family) : Family.ofRaw? (string f.name).toRaw = some f :=
  ofName?_name f

theorem Source.ofRaw?_toJson (s : Source) : Source.ofRaw? s.toJson.toRaw = some s := by
  have hrows : s.toJson = .object (present
      [("component".toList, some (.string s.component)),
       ("version".toList, some (.string s.version)),
       ("module".toList, some (.string s.module)),
       ("family".toList, some (.string s.family.name)),
       ("relative".toList, some (.string s.relative)),
       ("mediaType".toList, s.mediaType?.map .string),
       ("abspath".toList, s.path?.map .string)]) := by
    unfold Source.toJson
    cases s.mediaType? <;> cases s.path? <;> rfl
  rw [ofRaw?, record?_of_eq fieldNames hrows rfl (by decide)]
  simp [-Option.map_map, Raw.required?, text?_toRaw, optional?_text, Family.ofRaw?_toRaw]

theorem Publication.ofRaw?_toJson (p : Publication) :
    Publication.ofRaw? p.toJson.toRaw = some p := by
  have hrows : p.toJson = .object (present
      [("url".toList, some (.string p.url)),
       ("moduleRootPath".toList, some (.string p.moduleRoot))]) := rfl
  rw [ofRaw?, record?_of_eq fieldNames hrows rfl (by decide)]
  simp [Raw.required?, text?_toRaw]

/-- **A file is read back**, with its contents and where it is published. -/
theorem Entry.ofRaw?_toJson (e : Entry) : Entry.ofRaw? e.toJson.toRaw = some e := by
  have hrows : e.toJson = .object (present
      [("src".toList, some e.source.toJson), ("contents".toList, some (.string e.contents)),
       ("pub".toList, e.publication?.map Publication.toJson)]) := by
    unfold Entry.toJson
    cases e.publication? <;> rfl
  have hpublication := optional?_toRaw Publication.ofRaw?_toJson (fun _ => nofun) e.publication?
  rw [ofRaw?, record?_of_eq fieldNames hrows rfl (by decide)]
  simp [-Option.map_map, Raw.required?, Raw.defaulted?, text?_toRaw, Source.ofRaw?_toJson,
    hpublication]

theorem Release.ofRaw?_toJson (r : Release) : Release.ofRaw? r.toJson.toRaw = some r := by
  have hrows : r.toJson = .object (present
      [("version".toList, some (.string r.version)),
       ("displayVersion".toList, some (.string r.displayVersion)),
       ("title".toList, some (.string r.title))]) := rfl
  rw [ofRaw?, record?_of_eq fieldNames hrows rfl (by decide)]
  simp [Raw.required?, text?_toRaw]

/-- **A component is read back**, with its releases and the latest of them. -/
theorem Component.ofRaw?_toJson (c : Component) : Component.ofRaw? c.toJson.toRaw = some c := by
  have hrows : c.toJson = .object (present
      [("name".toList, some (.string c.name)), ("title".toList, some (.string c.title)),
       ("versions".toList, some (.array (c.releases.map Release.toJson))),
       ("latest".toList, c.latest?.map .string)]) := by
    unfold Component.toJson
    cases c.latest? <;> rfl
  have hreleases := list?_toRaw Release.ofRaw?_toJson c.releases
  rw [ofRaw?, record?_of_eq fieldNames hrows rfl (by decide)]
  simp [-Option.map_map, Raw.required?, Raw.defaulted?, text?_toRaw, optional?_text, hreleases]

/-! ### Pages -/

/-- The position of a page fits 64 bits with a sign. -/
def Page.Fits (p : Page) : Prop := ∀ i ∈ p.index?, -2 ^ 63 ≤ i ∧ i < 2 ^ 63

theorem Json.int64?_toRaw {n : Int} (hlow : -2 ^ 63 ≤ n) (hhigh : n < 2 ^ 63) :
    (integer n).toRaw.int64? = some n := by
  have hfits : -Int.pow 2 63 ≤ n ∧ n < Int.pow 2 63 := ⟨hlow, hhigh⟩
  rw [toRaw, Raw.int64?, integer?_numeral]
  exact Option.filter_some_pos (decide_eq_true hfits)

theorem Json.fits_of_int64? {r : Raw} {n : Int} (h : r.int64? = some n) :
    -2 ^ 63 ≤ n ∧ n < 2 ^ 63 := by
  cases r with
  | number m => exact of_decide_eq_true (Option.filter_eq_some_iff.1 h).2
  | _ => cases h

/-- **A page is read back**, with its position and its link. -/
theorem Page.ofRaw?_toJson {p : Page} (h : p.Fits) : Page.ofRaw? p.toJson.toRaw = some p := by
  have hrows : p.toJson = .object (present
      [("path".toList, some (.string p.path)), ("title".toList, some (.string p.title)),
       ("index".toList, p.index?.map .integer), ("href".toList, p.href?.map .string)]) := by
    unfold Page.toJson
    cases p.index? <;> cases p.href? <;> rfl
  have hindex : Raw.optional? Raw.int64? ((p.index?.map integer).map toRaw) = some p.index? := by
    cases hp : p.index? with
    | none => rfl
    | some i =>
      obtain ⟨hlow, hhigh⟩ := h i hp
      exact congrArg (Option.map some) (int64?_toRaw hlow hhigh)
  rw [ofRaw?, record?_of_eq fieldNames hrows rfl (by decide)]
  simp [-Option.map_map, Raw.required?, Raw.defaulted?, text?_toRaw, optional?_text, hindex]

theorem Page.fits_of_ofRaw? {r : Raw} {p : Page} (h : Page.ofRaw? r = some p) : p.Fits := by
  obtain ⟨fields, -, h⟩ := Option.bind_eq_some_iff.1 h
  split at h
  · rename_i path title index href
    obtain ⟨path, -, h⟩ := Option.bind_eq_some_iff.1 h
    obtain ⟨title, -, h⟩ := Option.bind_eq_some_iff.1 h
    obtain ⟨index?, hindex, h⟩ := Option.bind_eq_some_iff.1 h
    obtain ⟨href?, -, h⟩ := Option.bind_eq_some_iff.1 h
    obtain rfl := Option.some.inj h
    intro i hi
    obtain ⟨r, hr⟩ := exists_of_optional? (hindex.trans (congrArg some hi))
    exact fits_of_int64? hr
  · cases h

namespace PageIndex

/-- A list of pages is read back. -/
theorem ofRaw?_toJson {pages : List Page} (h : ∀ p ∈ pages, p.Fits) :
    Raw.list? Page.ofRaw? (toJson pages).toRaw = some pages := by
  rw [toJson, toRaw, toRawItems_eq, List.map_map]
  have hpages := mapM_map_eq_some (f := Page.ofRaw?) (g := fun p => p.toJson.toRaw) (k := id)
    fun p hp => Page.ofRaw?_toJson (h p hp)
  rwa [List.map_id] at hpages

end PageIndex

end DocSite

import DocSite.PageIndex
import DocSite.Proofs.Sorting

/-!
# Page indexes are stable

An index lists the pages below a directory. `PageIndex.IsIndex` says in which order without an
algorithm: pages with a position come first, positions do not descend, and pages that agree in their
position, or in having none, keep the order that they had.

* `PageIndex.IsIndex.unique` : no two lists are the index of one directory.
* `PageIndex.index_is_stable_sort` : the list that is built is the index.
* `PageIndex.IsIndex.filter` : what an index lists below a directory further down is the index of
  that directory.
* `PageIndex.nested_indexes_agree` : so nested directories have nested indexes, and the inner one
  may be built from the outer one.
-/

namespace DocSite

/-! ### Pages -/

namespace Page

theorem precedes_iff {a b : Page} :
    a.precedes b = true ↔
      (a.index? = none → b.index? = none) ∧ ∀ i ∈ a.index?, ∀ j ∈ b.index?, i ≤ j := by
  unfold precedes
  cases a.index? <;> cases b.index? <;> simp

theorem precedes_trans (a b c : Page) (hab : a.precedes b = true) (hbc : b.precedes c = true) :
    a.precedes c = true := by
  unfold precedes at *
  cases ha : a.index? <;> cases hb : b.index? <;> cases hc : c.index? <;>
    simp only [ha, hb, hc, decide_eq_true_eq, reduceCtorEq] at hab hbc ⊢
  omega

theorem precedes_total (a b : Page) : (a.precedes b || b.precedes a) = true := by
  unfold precedes
  cases a.index? <;> cases b.index? <;> simp [Int.le_total]

theorem index?_eq_of_precedes (a b : Page) (hab : a.precedes b = true)
    (hba : b.precedes a = true) : a.index? = b.index? := by
  obtain ⟨hnone, hle⟩ := precedes_iff.1 hab
  obtain ⟨hnone', hge⟩ := precedes_iff.1 hba
  cases ha : a.index? with
  | none => exact (hnone ha).symm
  | some i =>
    cases hb : b.index? with
    | none => rw [hnone' hb] at ha; cases ha
    | some j => rw [Int.le_antisymm (hle i ha j hb) (hge j hb i ha)]

/-- The page lies below a directory. -/
def IsBelow (dir : Text) (p : Page) : Prop := dir ++ ['/'] <+: p.path

instance (dir : Text) (p : Page) : Decidable (p.IsBelow dir) :=
  inferInstanceAs (Decidable (_ <+: _))

/-- The page as an index lists it: with a link to its own path, and all else as it was. -/
def linked (p : Page) : Page := { p with href? := some p.path }

@[simp] theorem linked_linked (p : Page) : p.linked.linked = p.linked := rfl

theorem isBelow_linked {dir : Text} {p : Page} : p.linked.IsBelow dir ↔ p.IsBelow dir := Iff.rfl

end Page

/-! ### The index of a directory -/

namespace PageIndex

open Page (IsBelow linked)

/-- What an index lists, in the order of the pages. -/
def entries (pages : List Page) (dir : Text) : List Page :=
  (pages.filter (IsBelow dir ·)).map linked

/-- `index` lists the pages below `dir`, those with a position first, in the order of their
positions, and those that agree in it in the order of `pages`. -/
structure IsIndex (pages : List Page) (dir : Text) (index : List Page) : Prop where
  /-- The pages below the directory, each as often as it occurs and linked to its own path. -/
  perm : index.Perm (entries pages dir)
  /-- After a page without a position come only pages without one. -/
  positioned_first : index.Pairwise fun p q => p.index? = none → q.index? = none
  ascending : index.Pairwise fun p q => ∀ i ∈ p.index?, ∀ j ∈ q.index?, i ≤ j
  /-- Pages of one position, and pages without a position, keep their order. -/
  ties : ∀ position? : Option Int, index.filter (fun p => p.index? = position?) =
    (entries pages dir).filter fun p => p.index? = position?

variable {pages index : List Page} {dir sub : Text}

theorem IsIndex.pairwise (h : IsIndex pages dir index) :
    index.Pairwise fun p q => p.precedes q = true :=
  (h.positioned_first.and h.ascending).imp Page.precedes_iff.2

/-- **A directory has one index.** -/
theorem IsIndex.unique {index' : List Page} (h : IsIndex pages dir index)
    (h' : IsIndex pages dir index') : index = index' :=
  eq_of_pairwise_of_filter Page.index?_eq_of_precedes h.pairwise h'.pairwise fun position? =>
    (h.ties position?).trans (h'.ties position?).symm

theorem build_eq (pages : List Page) (dir : Text) :
    build pages dir = (entries pages dir).mergeSort Page.precedes := by
  have hbelow (p : Page) : (dir ++ ['/']).isPrefixOf p.path = decide (p.IsBelow dir) := by
    rw [Bool.eq_iff_iff, List.isPrefixOf_iff_prefix, decide_eq_true_eq, IsBelow]
  simp only [build, hbelow]
  rfl

theorem mem_build_iff {p : Page} :
    p ∈ build pages dir ↔ ∃ q ∈ pages, q.IsBelow dir ∧ q.linked = p := by
  simp [build_eq, entries, and_assoc]

theorem isIndex_build (pages : List Page) (dir : Text) : IsIndex pages dir (build pages dir) := by
  rw [build_eq]
  have hsorted := List.pairwise_mergeSort Page.precedes_trans Page.precedes_total
    (entries pages dir)
  refine ⟨List.mergeSort_perm _ _, hsorted.imp fun h => (Page.precedes_iff.1 h).1,
    hsorted.imp fun h => (Page.precedes_iff.1 h).2, fun position? => ?_⟩
  -- pages that agree in their position stand in order with each other
  refine filter_mergeSort Page.precedes_trans Page.precedes_total (fun p q hp hq => ?_) _
  rw [Page.precedes_iff, of_decide_eq_true hp, of_decide_eq_true hq]
  exact ⟨id, fun i hi j hj => Int.le_of_eq (Option.mem_unique hi hj)⟩

/-- **An index is the stable sort of the pages below its directory.** The list that is built holds
them, each linked to its own path and else as it was; those with a position come before those
without one, positions do not descend, and pages that agree in their position, or in having none,
keep their order. No other list does. -/
theorem index_is_stable_sort (pages : List Page) (dir : Text) (index : List Page) :
    build pages dir = index ↔ IsIndex pages dir index := by
  constructor
  · rintro rfl
    exact isIndex_build pages dir
  · exact (isIndex_build pages dir).unique

-- The greatest position still stands before no position.
example :
    (build [⟨"docs/z".toList, [], none, none⟩,
        ⟨"docs/b".toList, [], some 9223372036854775807, none⟩,
        ⟨"docsx/c".toList, [], some 0, none⟩, ⟨"docs/y".toList, [], none, none⟩,
        ⟨"docs/a".toList, [], some (-9223372036854775808), none⟩] "docs".toList).map Page.path =
      ["docs/a".toList, "docs/b".toList, "docs/z".toList, "docs/y".toList] := by
  cbv

/-! ### Nested directories -/

theorem filter_entries (hsub : dir ++ ['/'] <+: sub ++ ['/']) :
    (entries pages dir).filter (IsBelow sub ·) = entries pages sub := by
  rw [entries, List.filter_map, List.filter_filter, entries]
  congr 1
  refine List.filter_congr fun p _ => ?_
  -- what lies below `sub` lies below `dir`
  have hbelow : p.IsBelow sub → p.IsBelow dir := hsub.trans
  simpa [Page.isBelow_linked] using hbelow

/-- **What an index lists below a directory further down is the index of that directory.** -/
theorem IsIndex.filter (h : IsIndex pages dir index) (hsub : dir ++ ['/'] <+: sub ++ ['/']) :
    IsIndex pages sub (index.filter (IsBelow sub ·)) where
  perm := filter_entries hsub ▸ h.perm.filter _
  positioned_first := h.positioned_first.filter _
  ascending := h.ascending.filter _
  ties position? := by
    rw [← filter_entries hsub, List.filter_comm, h.ties, List.filter_comm]

theorem entries_build (pages : List Page) (dir sub : Text) :
    entries (build pages dir) sub = (build pages dir).filter (IsBelow sub ·) := by
  refine (List.map_congr_left fun p hp => ?_).trans (List.map_id _)
  obtain ⟨q, -, -, rfl⟩ := mem_build_iff.1 (List.mem_filter.1 hp).1
  exact q.linked_linked

theorem build_of_isPrefix (pages : List Page) (hsub : dir ++ ['/'] <+: sub ++ ['/']) :
    build pages sub = (build pages dir).filter (IsBelow sub ·) :=
  (isIndex_build pages sub).unique ((isIndex_build pages dir).filter hsub)

/-- An index may be built from the index of a directory further up. -/
theorem build_build_of_isPrefix (pages : List Page) (hsub : dir ++ ['/'] <+: sub ++ ['/']) :
    build (build pages dir) sub = build pages sub := by
  have hindex : IsIndex pages sub ((build pages dir).filter (IsBelow sub ·)) :=
    (isIndex_build pages dir).filter hsub
  calc build (build pages dir) sub
      = ((build pages dir).filter (IsBelow sub ·)).mergeSort Page.precedes := by
        rw [build_eq, entries_build]
    _ = (build pages dir).filter (IsBelow sub ·) := List.mergeSort_of_pairwise hindex.pairwise
    _ = build pages sub := (build_of_isPrefix pages hsub).symm

/-- **An index is its own index.** -/
theorem build_build (pages : List Page) (dir : Text) :
    build (build pages dir) dir = build pages dir :=
  build_build_of_isPrefix pages List.prefix_rfl

/-- **Nested indexes agree.** The index of a directory within another one holds the pages of the
outer index that lie below it, in the same order; built from the outer index it is the same; and an
index that is built from itself is as it was. -/
theorem nested_indexes_agree (pages : List Page) (dir name : Text) :
    build pages (dir ++ '/' :: name) =
        (build pages dir).filter (fun p => p.IsBelow (dir ++ '/' :: name)) ∧
      build pages (dir ++ '/' :: name) = build (build pages dir) (dir ++ '/' :: name) ∧
      build (build pages dir) dir = build pages dir := by
  have hsub : dir ++ ['/'] <+: (dir ++ '/' :: name) ++ ['/'] := ⟨name ++ ['/'], by simp⟩
  exact ⟨build_of_isPrefix pages hsub, (build_build_of_isPrefix pages hsub).symm,
    build_build pages dir⟩

end PageIndex

end DocSite

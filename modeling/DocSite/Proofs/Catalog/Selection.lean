import DocSite.Catalog.Glob
import DocSite.Proofs.Reference.CrossReference
import DocSite.Proofs.Text.Splitting
import Mathlib.Data.List.Forall2

/-!
# What a glob selects

A glob is put together of pieces with stars between them; its fragments are the pieces that are not
empty (`Glob.HasFragments`). They are looked for one by one, each where it first occurs in a path.
So a glob selects the files of one place in whose paths the *first* occurrences of the fragments
stand in order (`Glob.FirstsRise`). That is less than all paths in which the fragments occur in
order (`Glob.OccurInOrder`): in `aba` the fragments `b` and `a` occur in order, but the first `a`
stands before the `b`. Where no fragment occurs twice the two are the same.

* `Text.position?_eq_some_iff` : the position that is found is that of the first occurrence.
* `Glob.hasFragments_iff` : a glob is split into its fragments.
* `Glob.fits_iff` : what is checked of a path.
* `Catalog.select_decides_glob` : the files that a glob selects; a reference without a star selects
  the file that it names.
-/

namespace DocSite

/-! ### Occurrences -/

namespace Text

/-- `fragment` stands in `s` after `i` characters. -/
def OccursAt (fragment s : Text) (i : Nat) : Prop :=
  ∃ before after, s = before ++ (fragment ++ after) ∧ before.length = i

/-- The first of the places where `fragment` stands in `s` is after `i` characters. -/
def FirstAt (fragment s : Text) (i : Nat) : Prop :=
  OccursAt fragment s i ∧ ∀ j < i, ¬ OccursAt fragment s j

variable {fragment s : Text} {c : Char} {i : Nat}

theorem occursAt_zero_iff : OccursAt fragment s 0 ↔ fragment <+: s := by
  constructor
  · rintro ⟨before, after, rfl, hlength⟩
    rw [List.eq_nil_of_length_eq_zero hlength]
    exact List.prefix_append fragment after
  · rintro ⟨after, rfl⟩
    exact ⟨[], after, rfl, rfl⟩

theorem occursAt_succ_iff : OccursAt fragment (c :: s) (i + 1) ↔ OccursAt fragment s i := by
  constructor
  · rintro ⟨before, after, heq, hlength⟩
    obtain ⟨d, before, rfl⟩ := List.exists_cons_of_length_eq_add_one hlength
    exact ⟨before, after, (List.cons.inj heq).2, Nat.succ.inj hlength⟩
  · rintro ⟨before, after, rfl, rfl⟩
    exact ⟨c :: before, after, rfl, rfl⟩

theorem not_occursAt_nil_succ : ¬ OccursAt fragment [] (i + 1) := by
  rintro ⟨before, after, heq, hlength⟩
  obtain ⟨rfl, -⟩ := List.append_eq_nil_iff.1 heq.symm
  cases hlength

theorem firstAt_succ_iff (h : ¬ fragment <+: c :: s) :
    FirstAt fragment (c :: s) (i + 1) ↔ FirstAt fragment s i := by
  unfold FirstAt
  rw [occursAt_succ_iff]
  refine and_congr_right fun _ => ⟨fun hfirst j hj => ?_, fun hfirst j hj => ?_⟩
  · rw [← occursAt_succ_iff (c := c)]
    exact hfirst (j + 1) (Nat.succ_lt_succ hj)
  · cases j with
    | zero => exact fun hzero => h (occursAt_zero_iff.1 hzero)
    | succ j =>
      rw [occursAt_succ_iff]
      exact hfirst j (Nat.lt_of_succ_lt_succ hj)

theorem firstAt_zero_iff : FirstAt fragment s 0 ↔ fragment <+: s := by
  rw [FirstAt, occursAt_zero_iff]
  exact ⟨fun h => h.1, fun h => ⟨h, by simp⟩⟩

theorem FirstAt.le {j : Nat} (h : FirstAt fragment s i) (hj : OccursAt fragment s j) : i ≤ j :=
  Nat.le_of_not_lt fun hlt => h.2 j hlt hj

theorem FirstAt.unique {j : Nat} (h : FirstAt fragment s i) (hj : FirstAt fragment s j) : i = j :=
  Nat.le_antisymm (h.le hj.1) (hj.le h.1)

theorem position?_cons (fragment : Text) (c : Char) (s : Text) :
    position? fragment (c :: s) =
      if fragment <+: c :: s then some 0 else (position? fragment s).map (· + 1) := by
  unfold position?
  rw [splitFirstText?]
  cases hprefix : fragment.isPrefixOf? (c :: s) with
  | some rest =>
    rw [if_pos ⟨rest, List.isPrefixOf?_eq_some_iff_append_eq.1 hprefix⟩]
    rfl
  | none =>
    have hnot : ¬ fragment <+: c :: s := by
      rintro ⟨rest, hrest⟩
      rw [List.isPrefixOf?_eq_some_iff_append_eq.2 hrest] at hprefix
      cases hprefix
    rw [if_neg hnot, Option.map_map, Option.map_map]
    rfl

/-- **The position that is found is that of the first occurrence.** -/
theorem position?_eq_some_iff : position? fragment s = some i ↔ FirstAt fragment s i := by
  induction s generalizing i with
  | nil =>
    cases i with
    | zero =>
      rw [firstAt_zero_iff, List.prefix_nil, position?, splitFirstText?]
      split_ifs with h <;> simp [h]
    | succ i =>
      refine ⟨fun h => ?_, fun h => absurd h.1 not_occursAt_nil_succ⟩
      rw [position?, splitFirstText?] at h
      split_ifs at h <;> simp at h
  | cons c s ih =>
    rw [position?_cons]
    split_ifs with hprefix
    · rw [Option.some.injEq]
      have hzero : FirstAt fragment (c :: s) 0 := firstAt_zero_iff.2 hprefix
      exact ⟨fun h => h ▸ hzero, hzero.unique⟩
    · cases i with
      | zero => simpa [firstAt_zero_iff] using hprefix
      | succ i =>
        rw [firstAt_succ_iff hprefix, ← ih]
        simp

end Text

/-! ### Paths -/

namespace Glob

/-- `fragments` are what stands in a path between stars, before the first and after the last, where
anything stands there: the path is made of pieces without stars and a star between any two, and the
fragments are the pieces that are not empty. -/
def HasFragments (path : Text) (fragments : List Text) : Prop :=
  ∃ pieces : List Text, pieces ≠ [] ∧ (∀ piece ∈ pieces, '*' ∉ piece) ∧
    ['*'].intercalate pieces = path ∧ fragments = pieces.filter (· ≠ [])

/-- The fragments occur in the path one after the other. -/
def OccurInOrder (fragments : List Text) (path : Text) : Prop :=
  ∃ positions : List Nat, positions.Pairwise (· < ·) ∧
    List.Forall₂ (fun fragment i => Text.OccursAt fragment path i) fragments positions

/-- The fragments occur in the path, and first do so one after the other. -/
def FirstsRise (fragments : List Text) (path : Text) : Prop :=
  ∃ positions : List Nat, positions.Pairwise (· < ·) ∧
    List.Forall₂ (fun fragment i => Text.FirstAt fragment path i) fragments positions

/-- The fragment does not occur twice in the path. -/
def OccursOnce (fragment path : Text) : Prop :=
  ∀ i j, Text.OccursAt fragment path i → Text.OccursAt fragment path j → i = j

variable {fragments : List Text} {path : Text}

/-- **The fragments that a glob is split into** are its fragments, and there are no others. -/
theorem hasFragments_iff : HasFragments path fragments ↔ fragments = Glob.fragments path := by
  constructor
  · rintro ⟨pieces, hne, hstar, rfl, rfl⟩
    rw [Glob.fragments, List.splitOn_intercalate '*' hstar hne]
  · rintro rfl
    exact ⟨path.splitOn '*', List.splitOn_ne_nil _ _, fun _ => Text.not_mem_of_mem_splitOn,
      List.intercalate_splitOn '*', rfl⟩

theorem FirstsRise.occurInOrder (h : FirstsRise fragments path) : OccurInOrder fragments path := by
  obtain ⟨positions, hrise, hfirst⟩ := h
  exact ⟨positions, hrise, hfirst.imp fun _ _ h => h.1⟩

theorem OccurInOrder.firstsRise (h : OccurInOrder fragments path)
    (honce : ∀ fragment ∈ fragments, OccursOnce fragment path) : FirstsRise fragments path := by
  obtain ⟨positions, hrise, hoccur⟩ := h
  refine ⟨positions, hrise, ?_⟩
  clear hrise
  induction hoccur with
  | nil => exact .nil
  | cons hi _ ih =>
    obtain ⟨hfragment, hrest⟩ := List.forall_mem_cons.1 honce
    exact .cons ⟨hi, fun j hj hoccurs => hj.ne (hfragment _ _ hoccurs hi)⟩ (ih hrest)

theorem pairwise_toList_append_cons_iff {last : Option Nat} {i : Nat} {positions : List Nat} :
    (last.toList ++ i :: positions).Pairwise (· < ·) ↔
      last.all (· < i) = true ∧ (i :: positions).Pairwise (· < ·) := by
  cases last with
  | none => exact (and_iff_right rfl).symm
  | some p =>
    rw [Option.toList_some, List.singleton_append, List.pairwise_cons, List.forall_mem_cons,
      Option.all_some, decide_eq_true_eq]
    constructor
    · exact fun ⟨⟨hp, _⟩, hrise⟩ => ⟨hp, hrise⟩
    · exact fun ⟨hp, hrise⟩ =>
        ⟨⟨hp, fun j hj => hp.trans ((List.pairwise_cons.1 hrise).1 j hj)⟩, hrise⟩

theorem fitsAfter_iff {last : Option Nat} :
    fitsAfter path last fragments = true ↔
      ∃ positions : List Nat, (last.toList ++ positions).Pairwise (· < ·) ∧
        List.Forall₂ (fun fragment i => Text.FirstAt fragment path i) fragments positions := by
  induction fragments generalizing last with
  | nil =>
    refine ⟨fun _ => ⟨[], ?_, .nil⟩, fun _ => by rw [fitsAfter]⟩
    cases last <;> simp
  | cons fragment fragments ih =>
    rw [fitsAfter]
    constructor
    · intro h
      cases hi : Text.position? fragment path with
      | none =>
        rw [hi] at h
        cases h
      | some i =>
        rw [hi] at h
        obtain ⟨hlast, hrest⟩ := Bool.and_eq_true_iff.1 h
        obtain ⟨positions, hrise, hfirst⟩ := ih.1 hrest
        exact ⟨i :: positions, pairwise_toList_append_cons_iff.2 ⟨hlast, hrise⟩,
          .cons (Text.position?_eq_some_iff.1 hi) hfirst⟩
    · rintro ⟨_, hrise, hfirst⟩
      cases hfirst with
      | @cons _ i _ positions hi hfirst =>
        obtain ⟨hlast, hrest⟩ := pairwise_toList_append_cons_iff.1 hrise
        rw [Text.position?_eq_some_iff.2 hi]
        exact Bool.and_eq_true_iff.2 ⟨hlast, ih.2 ⟨positions, hrest, hfirst⟩⟩

/-- **What is checked of a path**: the first occurrences of the fragments stand in order. -/
theorem fits_iff : fits path fragments = true ↔ FirstsRise fragments path := fitsAfter_iff

example : fits "aba".toList ["b".toList, "a".toList] = false := by decide

theorem fragments_of_not_mem (hne : path ≠ []) (hstar : '*' ∉ path) :
    Glob.fragments path = [path] := by
  rw [Glob.fragments, List.splitOn_eq_singleton hstar]
  simp [hne]

theorem firstsRise_singleton_self (path : Text) : FirstsRise [path] path :=
  ⟨[0], List.pairwise_singleton _ _, .cons (Text.firstAt_zero_iff.2 List.prefix_rfl) .nil⟩

end Glob

/-! ### Places -/

namespace Reference

/-- `l` has the component, the version, the module and the family that a reference names for a file
at `context`: those that the reference leaves out are those of `context`. -/
structure Places (r : Reference) (context l : Location) : Prop where
  component : l.component = r.component.getD context.component
  version : l.version = r.version.getD context.version
  module : l.module = r.module.getD context.module
  family : l.family.name = r.family.getD context.family.name

variable {r : Reference} {described context l : Location}

theorem Places.exists_described (h : r.Places context l) :
    ∃ described, r.resolve? context context.family = some described :=
  ⟨{ l with relative := r.relative }, resolve?_eq_some_iff.2
    ⟨h.component.symm, h.version.symm, h.module.symm, familyIn?_eq_some_iff.2 h.family, rfl⟩⟩

theorem describes_iff (h : r.resolve? context context.family = some described) :
    Glob.describes described l = true ↔
      r.Places context l ∧ Glob.FirstsRise (Glob.fragments r.relative) l.relative := by
  obtain ⟨hcomponent, hversion, hmodule, hfamily, hrelative⟩ := resolve?_eq_some_iff.1 h
  have hname := familyIn?_eq_some_iff.1 hfamily
  simp only [Glob.describes, Location.sameModule, Bool.and_eq_true, decide_eq_true_eq,
    Glob.fits_iff, ← hcomponent, ← hversion, ← hmodule, ← hrelative]
  constructor
  · rintro ⟨⟨⟨⟨hc, hv⟩, hm⟩, hf⟩, hrise⟩
    exact ⟨⟨hc, hv, hm, hf ▸ hname⟩, hrise⟩
  · rintro ⟨hplace, hrise⟩
    have hf : l.family = described.family :=
      Family.name_injective (hplace.family.trans hname.symm)
    exact ⟨⟨⟨⟨hplace.component, hplace.version⟩, hplace.module⟩, hf⟩, hrise⟩

theorem places_of_resolve? (h : r.resolve? context context.family = some l) :
    r.Places context l := by
  obtain ⟨hcomponent, hversion, hmodule, hfamily, -⟩ := resolve?_eq_some_iff.1 h
  exact ⟨hcomponent.symm, hversion.symm, hmodule.symm, familyIn?_eq_some_iff.1 hfamily⟩

theorem star_not_mem_relative {s : Text} (h : parse? s = some r) (hstar : '*' ∉ s) :
    '*' ∉ r.relative := by
  obtain ⟨place, -, rfl⟩ := (spells_of_parse? h).text
  exact fun hmem => hstar (List.mem_append_right _ hmem)

end Reference

/-! ### Files -/

namespace Catalog

variable {c : Catalog} {e : Entry} {glob : Text} {context : Location} {r : Reference}

/-- Whether a glob selects a file. -/
def selects (glob : Text) (context : Location) (e : Entry) : Bool :=
  (Location.ofReference? glob context context.family).any fun l => Glob.describes l e.location

theorem select_eq_filter (c : Catalog) (glob : Text) (context : Location) :
    c.select glob context = c.files.filter (selects glob context) := by
  unfold select selects
  cases Location.ofReference? glob context context.family with
  | none => simp
  | some l => rfl

theorem selects_iff :
    selects glob context e = true ↔ ∃ r, Reference.parse? glob = some r ∧
      r.Places context e.location ∧
      Glob.FirstsRise (Glob.fragments r.relative) e.location.relative := by
  simp only [selects, Option.any_eq_true, Location.ofReference?, Option.bind_eq_some_iff]
  constructor
  · rintro ⟨l, ⟨r, hr, hl⟩, hdescribes⟩
    exact ⟨r, hr, (Reference.describes_iff hl).1 hdescribes⟩
  · rintro ⟨r, hr, hplaces, hrise⟩
    obtain ⟨l, hl⟩ := hplaces.exists_described
    exact ⟨l, ⟨r, hr, hl⟩, (Reference.describes_iff hl).2 ⟨hplaces, hrise⟩⟩

theorem mem_select_iff (hr : Reference.parse? glob = some r) :
    e ∈ c.select glob context ↔ e ∈ c.files ∧ r.Places context e.location ∧
      Glob.FirstsRise (Glob.fragments r.relative) e.location.relative := by
  rw [select_eq_filter, List.mem_filter, selects_iff, hr]
  simp

theorem select_eq_nil (h : Reference.parse? glob = none ∨ ∃ r name,
    Reference.parse? glob = some r ∧ r.family = some name ∧ ∀ f : Family, f.name ≠ name) :
    c.select glob context = [] := by
  rw [select_eq_filter, List.filter_eq_nil_iff]
  intro e _ hselects
  obtain ⟨r, hr, hplaces, -⟩ := selects_iff.1 hselects
  rcases h with hnone | ⟨r', name, hr', hname, hunknown⟩
  · rw [hr] at hnone
    cases hnone
  · rw [hr] at hr'
    obtain rfl := Option.some.inj hr'
    exact hunknown e.location.family (by rw [hplaces.family, hname, Option.getD_some])

/-- A reference without a star selects the file that it names. -/
theorem mem_select_of_resolve? (hstar : '*' ∉ glob)
    (h : c.resolve? glob context context.family = some e) : e ∈ c.select glob context := by
  simp only [resolve?, Location.ofReference?, Option.bind_eq_some_iff] at h
  obtain ⟨l, ⟨r, hr, hl⟩, hfind⟩ := h
  have hlocation : e.location = l := by simpa using List.find?_some hfind
  have hwhole : Glob.fragments r.relative = [r.relative] := Glob.fragments_of_not_mem
    (Reference.spells_of_parse? hr).wellFormed.relative.1 (Reference.star_not_mem_relative hr hstar)
  rw [mem_select_iff hr, hwhole, hlocation, ← (Reference.resolve?_eq_some_iff.1 hl).2.2.2.2]
  exact ⟨List.mem_of_find?_eq_some hfind, Reference.places_of_resolve? hl,
    Glob.firstsRise_singleton_self _⟩

/-- **A glob selects exactly the files that it describes**, in catalog order and each as often as it
stands there: those of its place in whose paths the first occurrences of its fragments stand in
order. A text that is no reference, or names no family, selects nothing. So in every path that is
selected the fragments occur in order; every path in which they do, and none of them twice, is
selected; and a reference without a star selects the file that it names. -/
theorem select_decides_glob (c : Catalog) (glob : Text) (context : Location) :
    (∃ p : Entry → Bool, c.select glob context = c.files.filter p ∧
        ∀ e, p e = true ↔ ∃ r, Reference.parse? glob = some r ∧ r.Places context e.location ∧
          ∃ fragments, Glob.HasFragments r.relative fragments ∧
            Glob.FirstsRise fragments e.location.relative) ∧
      ((Reference.parse? glob = none ∨ ∃ r name, Reference.parse? glob = some r ∧
          r.family = some name ∧ ∀ f : Family, f.name ≠ name) → c.select glob context = []) ∧
      (∀ r, Reference.parse? glob = some r →
        (∃! fragments, Glob.HasFragments r.relative fragments) ∧
        ∀ fragments, Glob.HasFragments r.relative fragments →
          (∀ e ∈ c.select glob context, Glob.OccurInOrder fragments e.location.relative) ∧
          ∀ e ∈ c.files, r.Places context e.location →
            Glob.OccurInOrder fragments e.location.relative →
            (∀ fragment ∈ fragments, Glob.OccursOnce fragment e.location.relative) →
            e ∈ c.select glob context) ∧
      ('*' ∉ glob → ∀ e, c.resolve? glob context context.family = some e →
        e ∈ c.select glob context) := by
  refine ⟨⟨_, select_eq_filter c glob context, fun _ => ?_⟩, select_eq_nil, fun r hr => ?_,
    fun hstar e => mem_select_of_resolve? hstar⟩
  · simp only [selects_iff, Glob.hasFragments_iff, exists_eq_left]
  · simp only [Glob.hasFragments_iff]
    refine ⟨⟨_, rfl, fun _ h => h⟩, ?_⟩
    rintro _ rfl
    refine ⟨fun e he => ?_, fun e he hplaces horder honce => ?_⟩
    · exact ((mem_select_iff hr).1 he).2.2.occurInOrder
    · exact (mem_select_iff hr).2 ⟨he, hplaces, horder.firstsRise honce⟩

end Catalog

end DocSite

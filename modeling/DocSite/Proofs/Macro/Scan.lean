import DocSite.Proofs.Macro.Syntax

/-!
# The macros of a line

A line is cut by looking for the first macro, and again in what follows it, as if that were a line
of its own. So the text before a later macro is out of sight when it is looked for. That is no loss:
what is out of sight ends with the closing bracket of a macro, after which a macro may start. The
cut is therefore the one of a single scan of the whole line, `Invocation.Leftmost`, which is stated
over positions in the line and needs no order of looking.

* `Invocation.findAfter?_eq_some_iff` : the macro that is found is the leftmost.
* `Invocation.leftmost_iff` : the cut of a line is the only one at its leftmost macros that do not
  overlap.
-/

namespace DocSite

namespace Invocation

variable {names : List Text} {before lead s rest source : Text} {i : Invocation}

/-! ### The leftmost macro -/

/-- No macro starts in the part `gap` of a line, which stands between `before` and `rest`. -/
def NoneStarts (names : List Text) (before gap rest : Text) : Prop :=
  ∀ a b, gap = a ++ b → b ≠ [] → ∀ i source after, b ++ rest = source ++ after →
    ¬ Occurs names (before ++ a) i source after

theorem noneStarts_nil : NoneStarts names before [] rest := by
  intro a b hgap hb
  exact absurd (List.append_eq_nil_iff.1 hgap.symm).2 hb

theorem noneStarts_cons_iff {c : Char} {gap : Text} :
    NoneStarts names before (c :: gap) rest ↔
      siteAt? names before.getLast? (c :: gap ++ rest) = none ∧
        NoneStarts names (before ++ [c]) gap rest := by
  constructor
  · intro h
    constructor
    · cases hsite : siteAt? names before.getLast? (c :: gap ++ rest) with
      | none => rfl
      | some found =>
        obtain ⟨source, heq, hoccurs⟩ := siteAt?_eq_some_iff.1 hsite
        rw [← List.append_nil before] at hoccurs
        exact absurd hoccurs (h [] (c :: gap) rfl (by simp) _ _ _ heq)
    · intro a b hgap hb i source after heq
      rw [List.append_assoc]
      exact h (c :: a) b (by rw [hgap, List.cons_append]) hb i source after heq
  · rintro ⟨hhere, hlater⟩ a b hgap hb i source after heq hoccurs
    cases a with
    | nil =>
      rw [List.append_nil] at hoccurs
      rw [List.nil_append] at hgap
      have hsome : siteAt? names before.getLast? (c :: gap ++ rest) = some (i, after) :=
        siteAt?_eq_some_iff.2 ⟨source, by rw [hgap, heq], hoccurs⟩
      rw [hhere] at hsome
      cases hsome
    | cons d a =>
      obtain ⟨rfl, rfl⟩ := List.cons_eq_cons.1 hgap
      refine hlater a b rfl hb i source after heq ?_
      rw [List.append_assoc]
      exact hoccurs

theorem occurs_ne_nil (h : Occurs names before i source rest) : source ≠ [] := by
  obtain ⟨name, -, hspells⟩ := h.spells.exists_spells
  exact hspells.ne_nil

theorem findAfter?_eq_none_iff :
    findAfter? names before.getLast? s = none ↔ NoneStarts names before s [] := by
  induction s generalizing before with
  | nil => simp [findAfter?, noneStarts_nil]
  | cons c s ih =>
    have hlast : (before ++ [c]).getLast? = some c := List.getLast?_concat
    rw [noneStarts_cons_iff, List.append_nil, ← ih, hlast, findAfter?]
    cases siteAt? names before.getLast? (c :: s) <;> simp

theorem take_length_sub (source rest : Text) :
    (source ++ rest).take ((source ++ rest).length - rest.length) = source := by
  simp

theorem occurs_of_findAfter?
    (h : findAfter? names before.getLast? s = some ⟨lead, ⟨i, source⟩, rest⟩) :
    s = lead ++ (source ++ rest) ∧ NoneStarts names before lead (source ++ rest) ∧
      Occurs names (before ++ lead) i source rest := by
  induction s generalizing before lead with
  | nil => cases h
  | cons c s ih =>
    rw [findAfter?] at h
    cases hsite : siteAt? names before.getLast? (c :: s) with
    | some found =>
      obtain ⟨j, after⟩ := found
      obtain ⟨text, htext, hoccurs⟩ := siteAt?_eq_some_iff.1 hsite
      have htake : (c :: s).take ((c :: s).length - after.length) = text := by
        rw [htext, take_length_sub]
      simp only [hsite, htake, Option.some.injEq, Found.mk.injEq, Site.mk.injEq] at h
      obtain ⟨rfl, ⟨rfl, rfl⟩, rfl⟩ := h
      exact ⟨htext, noneStarts_nil, by rwa [List.append_nil]⟩
    | none =>
      have hlast : (before ++ [c]).getLast? = some c := List.getLast?_concat
      simp only [hsite, Option.map_eq_some_iff] at h
      obtain ⟨⟨tail, site, after⟩, hfound, heq⟩ := h
      obtain ⟨rfl, rfl, rfl⟩ := Found.mk.inj heq
      rw [← hlast] at hfound
      obtain ⟨rfl, hnone, hoccurs⟩ := ih hfound
      refine ⟨rfl, noneStarts_cons_iff.2 ⟨hsite, hnone⟩, ?_⟩
      rwa [List.append_assoc] at hoccurs

theorem findAfter?_of_occurs (hnone : NoneStarts names before lead (source ++ rest))
    (hoccurs : Occurs names (before ++ lead) i source rest) :
    findAfter? names before.getLast? (lead ++ (source ++ rest)) =
      some ⟨lead, ⟨i, source⟩, rest⟩ := by
  induction lead generalizing before with
  | nil =>
    obtain ⟨c, tail, rfl⟩ := List.exists_cons_of_ne_nil (occurs_ne_nil hoccurs)
    rw [List.append_nil] at hoccurs
    have hsite := siteAt?_eq_some_iff.2 ⟨c :: tail, rfl, hoccurs⟩
    have htake := take_length_sub (c :: tail) rest
    rw [List.cons_append] at hsite htake
    simp only [List.nil_append, List.cons_append, findAfter?, hsite, htake]
  | cons d lead ih =>
    obtain ⟨hhere, hlater⟩ := noneStarts_cons_iff.1 hnone
    have hlast : (before ++ [d]).getLast? = some d := List.getLast?_concat
    have hfound := ih hlater (by rwa [List.append_assoc])
    rw [hlast] at hfound
    rw [List.cons_append] at hhere ⊢
    rw [findAfter?, hhere]
    dsimp only
    rw [hfound, Option.map_some]

/-- **The macro that is found is the leftmost one.** -/
theorem findAfter?_eq_some_iff :
    findAfter? names before.getLast? s = some ⟨lead, ⟨i, source⟩, rest⟩ ↔
      s = lead ++ (source ++ rest) ∧ NoneStarts names before lead (source ++ rest) ∧
        Occurs names (before ++ lead) i source rest := by
  refine ⟨occurs_of_findAfter?, ?_⟩
  rintro ⟨rfl, hnone, hoccurs⟩
  exact findAfter?_of_occurs hnone hoccurs

/-! ### All macros -/

/-- The text of macros, each with what follows it. -/
def textOf (sites : List (Site × Text)) : Text :=
  sites.flatMap fun (site, after) => site.source ++ after

/-- In a line, after `before`, come a text `lead` without macros and then the macros `sites`, each
with a text without macros after it. -/
def LeftmostAfter (names : List Text) : (before lead : Text) → List (Site × Text) → Prop
  | before, lead, [] => NoneStarts names before lead []
  | before, lead, (site, after) :: sites =>
    NoneStarts names before lead (site.source ++ (after ++ textOf sites)) ∧
      Occurs names (before ++ lead) site.invocation site.source (after ++ textOf sites) ∧
      LeftmostAfter names (before ++ lead ++ site.source) after sites

/-- A line cut at its leftmost macros that do not overlap. -/
structure Leftmost (names : List Text) (line : Text) (c : Cut) : Prop where
  source_eq : c.source = line
  sites : LeftmostAfter names [] c.lead c.sites

theorem Cut.source_eq (c : Cut) : c.source = c.lead ++ textOf c.sites := rfl

/-- What follows a macro is looked at as a line of its own: a closing bracket binds nothing. -/
theorem findAfter?_restart (h : Occurs names before i source rest) (s : Text) :
    findAfter? names (before ++ source).getLast? s = find? names s := by
  obtain ⟨name, -, hspells⟩ := h.spells.exists_spells
  have hlast : (before ++ source).getLast? = some ']' := by
    rw [List.getLast?_append, hspells.getLast?_eq, Option.some_or]
  rw [hlast, find?]
  cases s with
  | nil => rfl
  | cons c s =>
    rw [findAfter?, findAfter?]
    rfl

theorem cut_of_none {line : Text} (h : find? names line = none) : cut names line = ⟨line, []⟩ := by
  rw [cut]
  split
  · rename_i found hfound
    rw [h] at hfound
    cases hfound
  · rfl

theorem cut_of_some {line : Text} {found : Found} (h : find? names line = some found) :
    cut names line = ⟨found.lead,
      (found.site, (cut names found.rest).lead) :: (cut names found.rest).sites⟩ := by
  rw [cut]
  split
  · rename_i found' hfound
    rw [h] at hfound
    rw [Option.some.inj hfound]
  · rename_i hnone
    rw [h] at hnone
    cases hnone

/-- The cut of what stands after `before`, where nothing before it is out of sight. -/
theorem leftmostAfter_cut (hbefore : ∀ t, findAfter? names before.getLast? t = find? names t)
    (line : Text) : (cut names line).source = line ∧
      LeftmostAfter names before (cut names line).lead (cut names line).sites := by
  induction hn : line.length using Nat.strong_induction_on generalizing before line with
  | _ n ih =>
    cases hfound : find? names line with
    | none =>
      rw [cut_of_none hfound]
      refine ⟨by simp [Cut.source], ?_⟩
      rw [← hbefore, findAfter?_eq_none_iff] at hfound
      exact hfound
    | some found =>
      obtain ⟨lead, ⟨i, source⟩, rest⟩ := found
      have hlt : rest.length < n := hn ▸ length_findAfter? hfound
      rw [cut_of_some hfound]
      rw [← hbefore, findAfter?_eq_some_iff] at hfound
      obtain ⟨rfl, hnone, hoccurs⟩ := hfound
      obtain ⟨hsource, hrest⟩ := ih rest.length hlt (findAfter?_restart hoccurs) rest rfl
      rw [Cut.source_eq] at hsource
      refine ⟨?_, ?_⟩
      · rw [Cut.source_eq]
        simp only [textOf, List.flatMap_cons, List.append_assoc] at hsource ⊢
        rw [hsource]
      · refine ⟨?_, ?_, hrest⟩ <;> simp only [hsource]
        · exact hnone
        · exact hoccurs

theorem eq_cut_of_leftmostAfter {sites : List (Site × Text)}
    (hbefore : ∀ t, findAfter? names before.getLast? t = find? names t)
    (h : LeftmostAfter names before lead sites) :
    cut names (lead ++ textOf sites) = ⟨lead, sites⟩ := by
  induction sites generalizing before lead with
  | nil =>
    have hnone : find? names lead = none := by
      rw [← hbefore, findAfter?_eq_none_iff]
      exact h
    simpa [textOf] using cut_of_none hnone
  | cons head sites ih =>
    obtain ⟨⟨i, source⟩, after⟩ := head
    obtain ⟨hnone, hoccurs, hrest⟩ := h
    have hfound : find? names (lead ++ textOf ((⟨i, source⟩, after) :: sites)) =
        some ⟨lead, ⟨i, source⟩, after ++ textOf sites⟩ := by
      rw [← hbefore, findAfter?_eq_some_iff]
      exact ⟨by simp [textOf], hnone, hoccurs⟩
    rw [cut_of_some hfound, ih (findAfter?_restart hoccurs) hrest]

/-- **A line is cut at its leftmost macros, and there is no other such cut.** -/
theorem leftmost_iff {line : Text} {c : Cut} : Leftmost names line c ↔ c = cut names line := by
  have hstart : ∀ t, findAfter? names ([] : Text).getLast? t = find? names t := fun _ => rfl
  constructor
  · rintro ⟨rfl, h⟩
    exact (eq_cut_of_leftmostAfter hstart h).symm
  · rintro rfl
    obtain ⟨hsource, hsites⟩ := leftmostAfter_cut hstart line
    exact ⟨hsource, hsites⟩

theorem source_cut (names : List Text) (line : Text) : (cut names line).source = line :=
  (leftmost_iff.2 rfl).source_eq

theorem name_mem_of_leftmostAfter {sites : List (Site × Text)}
    (h : LeftmostAfter names before lead sites) {site : Site} {after : Text}
    (hmem : (site, after) ∈ sites) : site.invocation.name ∈ names := by
  induction sites generalizing before lead with
  | nil => cases hmem
  | cons head sites ih =>
    obtain ⟨-, hoccurs, hrest⟩ := h
    rcases List.mem_cons.1 hmem with rfl | hmem
    · obtain ⟨name, hname, hspells⟩ := hoccurs.spells.exists_spells
      rw [hspells.name_eq]
      exact hname
    · exact ih hrest hmem

theorem name_mem_of_mem_cut {line : Text} {site : Site} {after : Text}
    (h : (site, after) ∈ (cut names line).sites) : site.invocation.name ∈ names :=
  name_mem_of_leftmostAfter (leftmost_iff.2 rfl).sites h

end Invocation

end DocSite

import DocSite.Proofs.Macro.Outline
import DocSite.Proofs.Text.Words
import Mathlib.Data.List.TakeWhile

/-!
# The section of a line

A line stands in the section of the last heading at or before it. What looks like a heading in a
verbatim block or in a comment is none.

* `headingLevel?_eq_some_iff` : a heading is one to six equals signs, a space and a title.
* `isVerbatim_eq_false_iff` : the lines that are looked at are outside of blocks, and no comments.
* `HeadingAt`, `SectionAfter` : the headings of a source, and the section after some of its lines,
  said without a scan.
* `getElem?_outline` : the outline of a source has its lines with their numbers and sections.
-/

namespace DocSite

/-! ### Headings -/

/-- A heading of the level `level`: its signs, a space, and a title that is not blank. -/
def IsHeading (line : Text) (level : Nat) : Prop :=
  ∃ title : Text, line = List.replicate (level + 1) '=' ++ ' ' :: title ∧ level + 1 ≤ 6 ∧
    title.isBlank = false

theorem headingLevel?_signs {n : Nat} {rest : Text} (hrest : rest.head? ≠ some '=') :
    headingLevel? (List.replicate n '=' ++ rest) =
      if 1 ≤ n ∧ n ≤ 6 ∧ rest.head? = some ' ' ∧ !Text.isBlank rest then some (n - 1)
      else none := by
  have hnone : rest.takeWhile (· = '=') = [] ∧ rest.dropWhile (· = '=') = rest := by
    cases rest with
    | nil => exact ⟨rfl, rfl⟩
    | cons c rest =>
      have hc : ¬ decide (c = '=') = true := by simpa using hrest
      exact ⟨List.takeWhile_cons_of_neg hc, List.dropWhile_cons_of_neg hc⟩
  have hsigns : ∀ c ∈ List.replicate n '=', decide (c = '=') = true := by
    intro c hc
    exact decide_eq_true (List.eq_of_mem_replicate hc)
  unfold headingLevel?
  rw [List.takeWhile_append_of_pos hsigns, List.dropWhile_append_of_pos hsigns, hnone.1, hnone.2,
    List.append_nil, List.length_replicate]

theorem headingLevel?_eq_some_iff {line : Text} {level : Nat} :
    headingLevel? line = some level ↔ IsHeading line level := by
  constructor
  · intro h
    have hsigns : line.takeWhile (· = '=') =
        List.replicate (line.takeWhile (· = '=')).length '=' :=
      List.eq_replicate_of_mem fun c hc => by simpa using List.mem_takeWhile_imp hc
    have hline := List.takeWhile_append_dropWhile (p := (· = '=')) (l := line)
    unfold headingLevel? at h
    dsimp only at h
    split at h
    · rename_i hcond
      obtain ⟨hone, hsix, hspace, htitle⟩ := hcond
      obtain ⟨title, hrest⟩ := List.head?_eq_some_iff.1 hspace
      have hlevel := Option.some.inj h
      refine ⟨title, ?_, by omega, ?_⟩
      · rw [← hlevel, Nat.sub_add_cancel hone, ← hsigns, ← hrest, hline]
      · rw [hrest] at htitle
        simpa [Text.isBlank, Text.isBlankChar] using htitle
    · cases h
  · rintro ⟨title, rfl, hsix, htitle⟩
    have hblank : Text.isBlank (' ' :: title) = false := by
      simpa [Text.isBlank] using fun _ => htitle
    rw [headingLevel?_signs (by simp), if_pos]
    · rfl
    · simp [hsix, hblank]

/-! ### Comments and blocks -/

/-- A comment: two slashes with nothing but white space before them. -/
def IsComment (line : Text) : Prop :=
  ∃ blank rest, Text.isBlank blank = true ∧ line = blank ++ '/' :: '/' :: rest

theorem isCommentLine_iff {line : Text} : isCommentLine line = true ↔ IsComment line := by
  rw [isCommentLine, List.isPrefixOf_iff_prefix]
  constructor
  · rintro ⟨rest, hrest⟩
    refine ⟨line.takeWhile Text.isBlankChar, rest, List.all_takeWhile, ?_⟩
    calc line = line.takeWhile Text.isBlankChar ++ line.trimStart :=
          List.takeWhile_append_dropWhile.symm
      _ = line.takeWhile Text.isBlankChar ++ '/' :: '/' :: rest := by rw [← hrest]; rfl
  · rintro ⟨blank, rest, hblank, rfl⟩
    have htrim : Text.trimStart ('/' :: '/' :: rest) = '/' :: '/' :: rest :=
      Text.trimStart_eq_self (by simp; decide)
    rw [Text.trimStart, List.dropWhile_append_of_pos (List.all_eq_true.1 hblank), ← Text.trimStart,
      htrim]
    exact ⟨rest, rfl⟩

/-- **The lines that are not verbatim** leave no block open, as the lines before them do, and are no
comments. -/
theorem isVerbatim_eq_false_iff {lines : List Text} {i : Nat} {line : Text}
    (hline : lines[i]? = some line) :
    isVerbatim (Fence.after none (lines.take i)) line = false ↔
      Fence.Outside (lines.take i) ∧ Fence.Outside (lines.take (i + 1)) ∧ ¬ IsComment line := by
  have hnext : Fence.after none (lines.take (i + 1)) =
      (Fence.after none (lines.take i)).next line := by
    rw [List.take_add_one, hline, Fence.after_append]
    rfl
  rw [← Fence.after_eq_none_iff, ← Fence.after_eq_none_iff, ← isCommentLine_iff, hnext, isVerbatim]
  simp only [Bool.or_eq_false_iff, Option.isSome_eq_false_iff, Option.isNone_iff_eq_none,
    Bool.not_eq_true, and_assoc]

/-! ### Sections -/

/-- There is a heading in the line at an index: neither within a verbatim block nor a delimiter of
one, and no comment. -/
def HeadingAt (lines : List Text) (i level : Nat) : Prop :=
  ∃ line, lines[i]? = some line ∧ Fence.Outside (lines.take i) ∧
    Fence.Outside (lines.take (i + 1)) ∧ ¬ IsComment line ∧ IsHeading line level

/-- The section that is open after the first `n` lines has the level `level`: that of the last
heading among them, or `outer` if there is none. -/
def SectionAfter (outer : Nat) (lines : List Text) (n level : Nat) : Prop :=
  (∃ i < n, HeadingAt lines i level ∧ ∀ j, i < j → j < n → ∀ l, ¬ HeadingAt lines j l) ∨
    (level = outer ∧ ∀ j < n, ∀ l, ¬ HeadingAt lines j l)

section

variable {outer n level : Nat} {lines : List Text} {line : Text}

theorem SectionAfter.heading (h : HeadingAt lines n level) :
    SectionAfter outer lines (n + 1) level :=
  .inl ⟨n, Nat.lt_succ_self n, h, fun j hlow hhigh => by omega⟩

theorem SectionAfter.stay (hsection : SectionAfter outer lines n level)
    (h : ∀ l, ¬ HeadingAt lines n l) : SectionAfter outer lines (n + 1) level := by
  have hnew : ∀ j, j < n + 1 → j < n ∨ j = n := fun j hj => by omega
  rcases hsection with ⟨i, hi, hheading, hlast⟩ | ⟨rfl, hnone⟩
  · refine .inl ⟨i, by omega, hheading, fun j hlow hhigh => ?_⟩
    rcases hnew j hhigh with hj | rfl
    · exact hlast j hlow hj
    · exact h
  · refine .inr ⟨rfl, fun j hj => ?_⟩
    rcases hnew j hj with hj | rfl
    · exact hnone j hj
    · exact h

theorem SectionAfter.succ (hsection : SectionAfter outer lines n level)
    (hline : lines[n]? = some line) :
    SectionAfter outer lines (n + 1) (levelAt (Fence.after none (lines.take n)) level line) := by
  unfold levelAt
  split
  · rename_i hverbatim
    refine hsection.stay ?_
    rintro l ⟨line', hline', hbefore, hafter, hcomment, -⟩
    obtain rfl := Option.some.inj (hline.symm.trans hline')
    have hplain := (isVerbatim_eq_false_iff hline).2 ⟨hbefore, hafter, hcomment⟩
    rw [hverbatim] at hplain
    cases hplain
  · rename_i hverbatim
    cases hheading : headingLevel? line with
    | some k =>
      obtain ⟨hbefore, hafter, hcomment⟩ :=
        (isVerbatim_eq_false_iff hline).1 (by simpa using hverbatim)
      exact .heading
        ⟨line, hline, hbefore, hafter, hcomment, headingLevel?_eq_some_iff.1 hheading⟩
    | none =>
      refine hsection.stay ?_
      rintro l ⟨line', hline', -, -, -, hl⟩
      obtain rfl := Option.some.inj (hline.symm.trans hline')
      rw [headingLevel?_eq_some_iff.2 hl] at hheading
      cases hheading

end

/-! ### Outlines -/

theorem levelAfter_concat {fence : Fence} {level : Nat} {lines : List Text} {line : Text} :
    levelAfter fence level (lines ++ [line]) =
      levelAt (fence.after lines) (levelAfter fence level lines) line := by
  induction lines generalizing fence level with
  | nil => rfl
  | cons first lines ih => exact ih

theorem sectionAfter_levelAfter (outer : Nat) {lines : List Text} {n : Nat}
    (h : n ≤ lines.length) : SectionAfter outer lines n (levelAfter none outer (lines.take n)) := by
  induction n with
  | zero => exact .inr ⟨rfl, fun j hj => by omega⟩
  | succ n ih =>
    have hline : lines[n]? = some lines[n] := List.getElem?_eq_getElem h
    rw [← List.take_append_getElem h, levelAfter_concat]
    exact (ih (by omega)).succ hline

theorem getElem?_outlineFrom {fence : Fence} {level number i : Nat} {lines : List Text} :
    (outlineFrom fence level number lines)[i]? = lines[i]?.map fun text =>
      ⟨number + i, levelAfter fence level (lines.take (i + 1)),
        isVerbatim (fence.after (lines.take i)) text, text⟩ := by
  induction lines generalizing fence level number i with
  | nil => rfl
  | cons line lines ih =>
    rw [outlineFrom_cons]
    cases i with
    | zero => rfl
    | succ i =>
      have hnumber : number + 1 + i = number + (i + 1) := by omega
      rw [List.getElem?_cons_succ, List.getElem?_cons_succ, ih, hnumber]
      rfl

/-- **The lines of an outline** are those of the source with their numbers, and each stands in the
section of the last heading at or before it. -/
theorem getElem?_outline {level i : Nat} {s : Text} {line : SourceLine}
    (h : (outline level s)[i]? = some line) :
    s.lines[i]? = some line.text ∧ line.number = i + 1 ∧
      line.verbatim = isVerbatim (Fence.after none (s.lines.take i)) line.text ∧
      SectionAfter level s.lines line.number line.level := by
  rw [outline_eq, getElem?_outlineFrom] at h
  obtain ⟨text, htext, rfl⟩ := Option.map_eq_some_iff.1 h
  have hi : i < s.lines.length := (List.getElem?_eq_some_iff.1 htext).1
  have hnumber : 1 + i = i + 1 := Nat.add_comm 1 i
  refine ⟨htext, hnumber, rfl, ?_⟩
  dsimp only
  rw [hnumber]
  exact sectionAfter_levelAfter level hi

end DocSite

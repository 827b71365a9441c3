import DocSite.Proofs.Text.Lines

/-!
# Paragraphs

Blank lines stand between the paragraphs of a text. Where a text is put together from paragraphs
with blank lines between them, these are found again (`Text.paragraphs_append_blank`), and whether
carriage returns count as parts of the lines makes no difference to where a paragraph ends.

* `Text.paragraphs` : the paragraphs in a list of lines.
* `Text.paragraphs_eq_singleton` : lines that are not blank are one paragraph.
* `Text.paragraphs_lines` : the paragraphs in the lines of a text.
-/

namespace DocSite

namespace Text

/-- The paragraphs in lines: what stands between blank lines. -/
def paragraphs (ls : List Text) : List (List Text) := (ls.splitOnP isBlank).filter (· ≠ [])

variable {ls : List Text}

@[simp] theorem paragraphs_nil : paragraphs [] = [] := by simp [paragraphs]

/-- No paragraph goes on after a blank line. -/
theorem paragraphs_append_blank {blank : Text} (hblank : isBlank blank = true)
    (ls rest : List Text) :
    paragraphs (ls ++ blank :: rest) = paragraphs ls ++ paragraphs rest := by
  rw [paragraphs, List.splitOnP_append_cons _ _ hblank, List.filter_append]
  rfl

/-- Lines that are not blank are one paragraph. -/
theorem paragraphs_eq_singleton (hne : ls ≠ []) (h : ∀ line ∈ ls, isBlank line = false) :
    paragraphs ls = [ls] := by
  rw [paragraphs, List.splitOnP_eq_singleton h]
  simp [hne]

/-! ### Line endings -/

theorem isBlank_dropReturn (line : Text) : isBlank (dropReturn line) = isBlank line := by
  unfold dropReturn
  split
  · rename_i hlast
    obtain ⟨before, rfl⟩ := List.getLast?_eq_some_iff.1 hlast
    have hreturn : isBlankChar '\r' = true := by decide
    simp [isBlank, hreturn]
  · rfl

theorem splitOnP_map {α β : Type} {p : α → Bool} {q : β → Bool} {g : α → β} (h : ∀ a, q (g a) = p a)
    (as : List α) : (as.map g).splitOnP q = (as.splitOnP p).map (List.map g) := by
  induction as with
  | nil => simp
  | cons a as ih =>
    rw [List.map_cons, List.splitOnP_cons_eq_if_modifyHead, List.splitOnP_cons_eq_if_modifyHead,
      ih, h]
    split
    · rfl
    · cases as.splitOnP p <;> rfl

/-- Without carriage returns at their ends, lines make the same paragraphs. -/
theorem paragraphs_map_dropReturn (ls : List Text) :
    paragraphs (ls.map dropReturn) = (paragraphs ls).map (List.map dropReturn) := by
  rw [paragraphs, paragraphs, splitOnP_map isBlank_dropReturn, List.filter_map]
  congr 2
  funext paragraph
  simp

theorem linesOfPieces_concat_nil (pieces : List Text) :
    linesOfPieces (pieces ++ [[]]) = pieces.map dropReturn := by
  induction pieces with
  | nil => rfl
  | cons piece pieces ih =>
    obtain ⟨next, rest, hrest⟩ : ∃ next rest, pieces ++ [[]] = next :: rest :=
      List.exists_cons_of_ne_nil (by simp)
    rw [List.cons_append, hrest, linesOfPieces, ← hrest, ih, List.map_cons]

theorem splitOn_append_newline (a b : Text) :
    (a ++ '\n' :: b).splitOn '\n' = a.splitOn '\n' ++ b.splitOn '\n' := by
  simp only [List.splitOn_eq_splitOnP]
  exact List.splitOnP_append_cons _ _ (by simp)

/-- **The paragraphs in the lines of a text** that ends with a line feed are those in the pieces
between line feeds, but for the carriage returns at the ends of lines. -/
theorem paragraphs_lines (s : Text) :
    paragraphs (lines (s ++ ['\n'])) =
      (paragraphs ((s ++ ['\n']).splitOn '\n')).map (List.map dropReturn) := by
  have hpieces : (s ++ ['\n']).splitOn '\n' = s.splitOn '\n' ++ [[]] := splitOn_append_newline s []
  rw [lines, hpieces, linesOfPieces_concat_nil, paragraphs_map_dropReturn,
    paragraphs_append_blank rfl, paragraphs_nil, List.append_nil]

end Text

end DocSite

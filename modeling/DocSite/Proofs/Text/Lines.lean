import DocSite.Proofs.Text.Splitting
import DocSite.Proofs.Text.Words
import DocSite.Text.Lines

/-!
# Lines and line endings

Taking a text apart into lines and putting the lines together again changes nothing but the line
endings: a carriage return before a line feed is lost, and every other character stays where it is
(`Text.normalizeNewlines`).

* `Text.lines_unlines_append` : lines in front of a text are lines of it.
* `Text.unlines_lines` : the lines of a text put together are the text with its endings normalized.
* `Text.filter_normalizeNewlines` : nothing but carriage returns is lost.
* `Text.endsWithNewline_normalizeNewlines` : a line feed at the end stays, and none is added.
-/

namespace DocSite

namespace Text

/-- The text with every carriage return and line feed replaced by a line feed. -/
def normalizeNewlines : Text → Text
  | [] => []
  | c :: rest =>
    if c = '\r' ∧ rest.head? = some '\n' then normalizeNewlines rest
    else c :: normalizeNewlines rest

theorem normalizeNewlines_newline (rest : Text) :
    normalizeNewlines ('\n' :: rest) = '\n' :: normalizeNewlines rest := by
  simp [normalizeNewlines]

theorem normalizeNewlines_of_not_mem {s : Text} (h : '\n' ∉ s) : normalizeNewlines s = s := by
  induction s with
  | nil => rfl
  | cons c s ih =>
    have hs : '\n' ∉ s := fun hs => h (List.mem_cons_of_mem _ hs)
    have hhead : s.head? ≠ some '\n' := fun hhead => hs (List.mem_of_mem_head? hhead)
    rw [normalizeNewlines, if_neg fun hc => hhead hc.2, ih hs]

theorem dropReturn_cons_cons (c d : Char) (s : Text) :
    dropReturn (c :: d :: s) = c :: dropReturn (d :: s) := by
  unfold dropReturn
  rw [List.getLast?_cons_cons]
  split <;> rfl

theorem normalizeNewlines_append {line : Text} (h : '\n' ∉ line) (rest : Text) :
    normalizeNewlines (line ++ '\n' :: rest) =
      dropReturn line ++ '\n' :: normalizeNewlines rest := by
  induction line with
  | nil => exact normalizeNewlines_newline rest
  | cons c line ih =>
    have hline : '\n' ∉ line := fun hline => h (List.mem_cons_of_mem _ hline)
    cases line with
    | nil =>
      by_cases hc : c = '\r'
      · simp [hc, normalizeNewlines, dropReturn]
      · simp [hc, normalizeNewlines, dropReturn]
    | cons d line =>
      have hd : d ≠ '\n' := fun hd => hline (by simp [hd])
      rw [dropReturn_cons_cons, List.cons_append, normalizeNewlines, ih hline]
      simp [hd]

/-- Nothing but carriage returns is lost, and all else keeps its order. -/
theorem filter_normalizeNewlines (s : Text) :
    (normalizeNewlines s).filter (· ≠ '\r') = s.filter (· ≠ '\r') := by
  induction s with
  | nil => rfl
  | cons c s ih =>
    rw [normalizeNewlines]
    split
    · rename_i h
      rw [ih, List.filter_cons_of_neg (by simp [h.1])]
    · rw [List.filter_cons, List.filter_cons, ih]

theorem normalizeNewlines_eq_nil_iff {s : Text} : normalizeNewlines s = [] ↔ s = [] := by
  induction s with
  | nil => simp [normalizeNewlines]
  | cons c s ih =>
    rw [normalizeNewlines]
    split
    · rename_i h
      have hs : s ≠ [] := by
        rintro rfl
        simp at h
      simp [ih, hs]
    · simp

/-- A line feed at the end of a text stays, and none is added. -/
theorem endsWithNewline_normalizeNewlines (s : Text) :
    endsWithNewline (normalizeNewlines s) = s.endsWithNewline := by
  unfold endsWithNewline
  induction s with
  | nil => rfl
  | cons c s ih =>
    by_cases hs : s = []
    · subst hs
      simp [normalizeNewlines]
    · have hne : normalizeNewlines s ≠ [] := fun h => hs (normalizeNewlines_eq_nil_iff.1 h)
      rw [List.getLast?_cons_of_ne_nil hs, ← ih, normalizeNewlines]
      split
      · rfl
      · rw [List.getLast?_cons_of_ne_nil hne]

theorem lines_eq_singleton {s : Text} (hne : s ≠ []) (h : '\n' ∉ s) : s.lines = [s] := by
  rw [lines, List.splitOn_eq_singleton h, linesOfPieces, if_neg hne]

/-! ### Lines in front of a text -/

/-- A text that can stand in a line whose ending is a line feed. -/
structure IsLine (line : Text) : Prop where
  no_newline : '\n' ∉ line
  no_return : line.getLast? ≠ some '\r'

instance (line : Text) : Decidable (IsLine line) :=
  decidable_of_iff ('\n' ∉ line ∧ line.getLast? ≠ some '\r')
    ⟨fun ⟨hnewline, hreturn⟩ => ⟨hnewline, hreturn⟩, fun h => ⟨h.no_newline, h.no_return⟩⟩

theorem IsLine.append {a b : Text} (ha : IsLine a) (htrim : b.trim = b) (hb : '\n' ∉ b) :
    IsLine (a ++ b) := by
  refine ⟨fun h => (List.mem_append.1 h).elim ha.no_newline hb, fun h => ?_⟩
  rw [List.getLast?_append] at h
  cases hlast : b.getLast? with
  | none =>
    rw [hlast, Option.none_or] at h
    exact ha.no_return h
  | some c =>
    have hblank := isBlankChar_getLast? htrim c hlast
    rw [hlast, Option.some_or, Option.some.injEq] at h
    rw [h] at hblank
    cases hblank

theorem lines_append_newline {line : Text} (h : '\n' ∉ line) (rest : Text) :
    lines (line ++ '\n' :: rest) = dropReturn line :: lines rest := by
  rw [lines, List.splitOn_append_cons_self_of_not_mem h]
  obtain ⟨piece, pieces, hpieces⟩ := List.exists_cons_of_ne_nil (List.splitOn_ne_nil '\n' rest)
  rw [lines, hpieces, linesOfPieces]

/-! ### Lines put together -/

theorem unlines_nil (final : Bool) : unlines final [] = if final then ['\n'] else [] := rfl

theorem unlines_singleton (final : Bool) (line : Text) :
    unlines final [line] = line ++ if final then ['\n'] else [] := by
  rw [unlines, join_singleton]

theorem unlines_cons_cons (final : Bool) (line next : Text) (lines : List Text) :
    unlines final (line :: next :: lines) = line ++ '\n' :: unlines final (next :: lines) := by
  simp [unlines]

/-- Lines in front of a text, each with its ending, are lines of it. -/
theorem lines_unlines_append {ls : List Text} (hne : ls ≠ []) (h : ∀ line ∈ ls, IsLine line)
    (rest : Text) : lines (unlines true ls ++ rest) = ls ++ lines rest := by
  induction ls with
  | nil => exact absurd rfl hne
  | cons line ls ih =>
    obtain ⟨hline, hls⟩ := List.forall_mem_cons.1 h
    have hkept : dropReturn line = line := if_neg hline.no_return
    cases ls with
    | nil =>
      rw [unlines_singleton, if_pos rfl, List.append_assoc, List.singleton_append,
        lines_append_newline hline.no_newline, hkept, List.singleton_append]
    | cons next ls =>
      rw [unlines_cons_cons, List.append_assoc, List.cons_append,
        lines_append_newline hline.no_newline, hkept, ih (List.cons_ne_nil _ _) hls]
      rfl

theorem endsWithNewline_append_newline {line rest : Text} (h : rest ≠ []) :
    endsWithNewline (line ++ '\n' :: rest) = rest.endsWithNewline := by
  unfold endsWithNewline
  rw [List.getLast?_append, List.getLast?_cons_of_ne_nil h]
  cases hlast : rest.getLast? with
  | none => exact absurd (List.getLast?_eq_none_iff.1 hlast) h
  | some c => rfl

/-- An empty text has no lines, and no other text has none. -/
theorem linesOfPieces_eq_nil_iff {piece : Text} {pieces : List Text} :
    linesOfPieces (piece :: pieces) = [] ↔ join ['\n'] (piece :: pieces) = [] := by
  cases pieces with
  | nil => simp [linesOfPieces]
  | cons _ _ => simp [linesOfPieces]

theorem unlines_linesOfPieces {pieces : List Text} (h : ∀ piece ∈ pieces, '\n' ∉ piece) :
    unlines (endsWithNewline (join ['\n'] pieces)) (linesOfPieces pieces) =
      normalizeNewlines (join ['\n'] pieces) := by
  induction pieces with
  | nil => rfl
  | cons piece pieces ih =>
    obtain ⟨hpiece, hpieces⟩ := List.forall_mem_cons.1 h
    cases pieces with
    | nil =>
      have hlast : endsWithNewline piece = false := by
        refine decide_eq_false fun hlast => hpiece (List.mem_of_getLast? hlast)
      rw [join_singleton, hlast, normalizeNewlines_of_not_mem hpiece, linesOfPieces]
      split
      · rename_i hnil
        rw [hnil]
        rfl
      · simp [unlines_singleton]
    | cons next rest =>
      rw [join_cons_cons, List.singleton_append, normalizeNewlines_append hpiece, ← ih hpieces,
        linesOfPieces]
      cases hlines : linesOfPieces (next :: rest) with
      | nil =>
        -- the piece after the last line feed is empty and no line
        rw [linesOfPieces_eq_nil_iff.1 hlines, unlines_singleton]
        simp [endsWithNewline, unlines_nil]
      | cons line lines =>
        have hne : join ['\n'] (next :: rest) ≠ [] := by
          rw [← linesOfPieces_eq_nil_iff.ne, hlines]
          exact List.cons_ne_nil line lines
        rw [endsWithNewline_append_newline hne, unlines_cons_cons]

/-- **The lines of a text put together are the text with its line endings normalized.** -/
theorem unlines_lines (s : Text) : unlines s.endsWithNewline s.lines = normalizeNewlines s := by
  have hs : join ['\n'] (s.splitOn '\n') = s := List.intercalate_splitOn '\n'
  have hpieces : ∀ piece ∈ s.splitOn '\n', '\n' ∉ piece := fun _ => not_mem_of_mem_splitOn
  have h := unlines_linesOfPieces hpieces
  rw [hs] at h
  exact h

end Text

end DocSite

import DocSite.Text.Basic
import Mathlib.Data.List.TakeWhile

/-!
# Texts without a character at one end

What is left of a text without the run of a character at one of its ends is told without a look at
how the run is taken away: the text is put together from the two, and what is left does not go on
with the character.

* `Text.withoutEnding_dropEndWhile`, `Text.withoutBeginning_dropWhile` : what is dropped is the run.
-/

namespace DocSite

namespace Text

/-- `part` is `s` without the characters `c` at its end. -/
def WithoutEnding (c : Char) (s part : Text) : Prop :=
  (∃ n, s = part ++ List.replicate n c) ∧ part.getLast? ≠ some c

/-- `part` is `s` without the characters `c` at its beginning. -/
def WithoutBeginning (c : Char) (s part : Text) : Prop :=
  (∃ n, s = List.replicate n c ++ part) ∧ part.head? ≠ some c

theorem withoutBeginning_dropWhile (c : Char) (s : Text) :
    WithoutBeginning c s (s.dropWhile (· = c)) := by
  constructor
  · have hrun : s.takeWhile (· = c) = List.replicate (s.takeWhile (· = c)).length c :=
      List.eq_replicate_of_mem fun d hd => by simpa using List.mem_takeWhile_imp hd
    refine ⟨(s.takeWhile (· = c)).length, ?_⟩
    rw [← hrun, List.takeWhile_append_dropWhile]
  · intro hhead
    have hnot := List.head?_dropWhile_not (· = c) s
    rw [hhead] at hnot
    simp at hnot

theorem withoutEnding_dropEndWhile (c : Char) (s : Text) :
    WithoutEnding c s (s.dropEndWhile (· = c)) := by
  obtain ⟨⟨n, hrun⟩, hhead⟩ := withoutBeginning_dropWhile c s.reverse
  refine ⟨⟨n, ?_⟩, by rwa [dropEndWhile, List.getLast?_reverse]⟩
  calc s = s.reverse.reverse := s.reverse_reverse.symm
    _ = (List.replicate n c ++ s.reverse.dropWhile (· = c)).reverse := congrArg List.reverse hrun
    _ = s.dropEndWhile (· = c) ++ List.replicate n c := by
      rw [List.reverse_append, List.reverse_replicate, dropEndWhile]

end Text

end DocSite
